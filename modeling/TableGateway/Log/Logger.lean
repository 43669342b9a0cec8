import TableGateway.Json.Display
import TableGateway.Log.Record
import TableGateway.Log.Tree

/-!
# Loggers

Loggers of one name share a level. A logger is opened with a level word and a correlation ID;
without an ID the next number of the session is used.
-/

namespace TableGateway.Log

structure Logger where
  name : Text
  correlationId : Json
  deriving DecidableEq

/-- Why a logger is not opened. -/
inductive OpenError where
  | nameNotText
  | unknownLevel (word : Text)
  deriving DecidableEq

def OpenError.message : OpenError → Text
  | nameNotText => "A logger name must be a string"
  | unknownLevel word => "Unknown level: " ++ (Json.str word).literal

/-- The name of a logger; an absent name and the word for the root are the root. -/
def loggerName (name : Json) : Except OpenError Text :=
  if !name.truthy then .ok ""
  else match name with
    | .str s => .ok (if s = Tree.rootWord then "" else s)
    | _ => .error .nameNotText

/-- The loggers of one run of the program: the time that records show, the tree of the loggers, how
many correlation IDs were made, and what made IDs start with. -/
structure Session where
  clock : Text
  tree : Tree := {}
  issued : Nat := 0
  idStem : Text := "uuid-"
  deriving DecidableEq

namespace Session

/-- The level word when none is given. -/
def defaultWord : Text := "INFO"

/-- The correlation ID made as the given number. -/
def madeId (session : Session) (number : Nat) : Json := .str (session.idStem ++ toString number)

/-- Opens a logger and sets the level of its name. With an unknown level word the logger is refused,
but its name is in the tree from then on. -/
def openLogger (session : Session) (word? : Option Text) (name correlationId : Json) :
    Session × Except OpenError Logger :=
  match loggerName name with
  | .error cause => (session, .error cause)
  | .ok name =>
      let tree := session.tree.add name
      let word := word?.getD defaultWord
      match Level.ofWord? word with
      | none => ({ session with tree := tree }, .error (.unknownLevel word))
      | some level =>
          let tree := tree.setLevel name level
          if correlationId.truthy then ({ session with tree := tree }, .ok ⟨name, correlationId⟩)
          else
            let issued := session.issued + 1
            ({ session with tree := tree, issued := issued }, .ok ⟨name, session.madeId issued⟩)

/-- The lines that a logger prints for some records: one for each that its level lets through. -/
def lines (session : Session) (logger : Logger) (records : List Record) : List String :=
  (records.filter fun record => session.tree.enabled logger.name record.level).map
    fun record => record.line session.clock logger.correlationId

/-- The session after a logger was given some records. -/
def afterRecords (session : Session) (logger : Logger) (records : List Record) : Session :=
  { session with
    tree := records.foldl (fun tree record => tree.settle logger.name record.level) session.tree }

end Session

/-- The names that a field of a record may not have, because the parts of the record itself have
them. -/
def reservedFields : List Text := ["self", "level", "message"]

/-- The record of a message with fields, none of which may have a reserved name. -/
def record? (level : Level) (message : Json) (fields : List (Text × Json)) : Option Record :=
  if (Entries.keys fields).any (reservedFields.contains ·) then none
  else some ⟨level, message, fields⟩

end TableGateway.Log
