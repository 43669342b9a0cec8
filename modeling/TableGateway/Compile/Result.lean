import TableGateway.Log.Record
import TableGateway.Resource

/-!
# Results of a compilation

What has been compiled so far: the resource map, the events with the logical IDs of their methods,
the failures and the warnings, each with the position of its event.
-/

namespace TableGateway.Compile

/-- An event that was compiled, with the logical ID of its method. -/
structure Compiled where
  logicalId : Text
  event : Event
  deriving DecidableEq

/-- A key that was given but has no source. -/
structure Warning where
  index : Int
  role : KeyRole
  deriving DecidableEq

namespace Warning

def message (warning : Warning) : Text :=
  warning.role.fieldName ++ " has no pathParam, queryStringParam or name/value; key omitted"

def toJson (warning : Warning) : Json :=
  .obj [("index", .int warning.index), ("errorCode", .str "UNRESOLVED_KEY_SPEC"),
    ("message", .str warning.message), ("key", .str warning.role.fieldName)]

end Warning

structure Skipped where
  index : Int
  failure : Failure
  deriving DecidableEq

def Skipped.toJson (skipped : Skipped) : Json :=
  .obj (Entries.merge [("index", .int skipped.index)] skipped.failure.report.toFields)

/-- What has been compiled so far. -/
structure Result where
  resources : ResourceMap := []
  compiled : List Compiled := []
  errors : List Skipped := []
  warnings : List Warning := []
  deriving DecidableEq

namespace Result

def ok (result : Result) : Bool := result.errors.isEmpty

def methodIds (result : Result) : List Text := result.compiled.map (·.logicalId)

def events (result : Result) : List Event := result.compiled.map (·.event)

end Result

/-- The records of a computation, in order, and how it ended. -/
structure Run (α : Type) where
  records : List Log.Record
  outcome : Except Failure α

namespace Run

/-- The computation that logs nothing. -/
def pure {α : Type} (value : α) : Run α := ⟨[], .ok value⟩

/-- Runs a second computation on the value of the first; a failure ends the run. -/
def bind {α β : Type} (run : Run α) (next : α → Run β) : Run β :=
  match run.outcome with
  | .error failure => ⟨run.records, .error failure⟩
  | .ok value => ⟨run.records ++ (next value).records, (next value).outcome⟩

end Run

end TableGateway.Compile
