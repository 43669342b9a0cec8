import TableGateway.Json.Display

/-!
# Failures

What can go wrong with one event. An `EventError` is a cause that the rules name; it has a code, a
message and details. A `Fault` is a failure that no rule names, such as a value of the wrong kind in
the middle of a computation. A report shows either as an object.
-/

namespace TableGateway

structure Report where
  code : Text
  message : Text
  details : List (Text × Json)
  deriving DecidableEq

namespace Report

/-- The entries of a report: details are written over code and message. -/
def entries (code message : Json) (details : List (Text × Json)) : List (Text × Json) :=
  Entries.merge [("errorCode", code), ("message", message)] details

def toFields (report : Report) : List (Text × Json) :=
  entries (.str report.code) (.str report.message) report.details

def toJson (report : Report) : Json := .obj report.toFields

end Report

/-- Why an event is refused. -/
inductive EventError where
  | blockNotObject (block kind : Text)
  /-- A configured response template is neither text nor an object. -/
  | templateKind (outcome kind : Text)
  | unknownAction (value : Json)
  | keyNotObject (value : Json)
  | keyWithoutType (value : Json)
  | scopesNotList
  | corsNotObject (value : Json)
  | missingFields (names : List Text)
  /-- The method as given, and in lower case. -/
  | unknownMethod (given : Json) (lowered : Text)
  | pathNotText
  /-- The event's action has no request template. -/
  | noTemplate (action : Json)
  | requestOverrides (kind : Text)
  | responseOverrides (kind : Text)
  | responseOverride (outcome kind : Text)
  | methodTaken (logicalId path method : Text)
  /-- A path resource's logical ID is taken by another path. -/
  | pathTaken (logicalId path method : Text)
  deriving DecidableEq

namespace EventError

/-- The names of the actions that exist, as the report on an unknown one lists them. -/
def supportedActions : List Text := ["PutItem", "GetItem", "DeleteItem"]

def code : EventError → Text
  | unknownAction _ | noTemplate _ => "UNSUPPORTED_ACTION"
  | methodTaken _ _ _ | pathTaken _ _ _ => "LOGICAL_ID_COLLISION"
  | _ => "INVALID_EVENT"

def message : EventError → Text
  | blockNotObject block _ => block ++ " must be an object"
  | templateKind outcome _ => "response.template." ++ outcome ++ " must be a string or an object"
  | unknownAction value => "Unsupported DynamoDB action: " ++ value.literal
  | keyNotObject _ => "Key definition must be an object"
  | keyWithoutType _ => "Key definition requires attributeType"
  | scopesNotList => "auth.authorizationScopes must be a list"
  | corsNotObject _ => "cors must be true or an object"
  | missingFields _ => "Event is missing required fields"
  | unknownMethod given _ => "Unsupported HTTP method: " ++ given.display
  | pathNotText => "path must be a string"
  | noTemplate action => "No request template for DynamoDB action: " ++ action.literal
  | requestOverrides _ => "Request template overrides must map content types to templates"
  | responseOverrides _ => "Response template overrides must map outcomes to templates"
  | responseOverride outcome _ =>
      "Response template override for " ++ outcome ++ " must be a string or a content-type map"
  | methodTaken logicalId _ _ => "Logical ID " ++ logicalId ++ " is already defined"
  | pathTaken logicalId _ _ => "Logical ID " ++ logicalId ++ " is already defined for another path"

def details : EventError → List (Text × Json)
  | blockNotObject block kind => [("field", .str block), ("type", .str kind)]
  | templateKind outcome kind | responseOverride outcome kind =>
      [("field", .str ("response.template." ++ outcome)), ("type", .str kind)]
  | unknownAction value =>
      [("action", value), ("supportedActions", .arr (supportedActions.map .str))]
  | keyNotObject value | keyWithoutType value => [("key", value)]
  | scopesNotList => [("field", .str "auth")]
  | corsNotObject value => [("cors", value)]
  | missingFields names => [("missingFields", .arr (names.map .str))]
  | unknownMethod _ lowered => [("method", .str lowered)]
  | pathNotText => [("field", .str "path")]
  | noTemplate action => [("action", action)]
  | requestOverrides kind => [("field", .str "request.template"), ("type", .str kind)]
  | responseOverrides kind => [("field", .str "response.template"), ("type", .str kind)]
  | methodTaken logicalId path method | pathTaken logicalId path method =>
      [("logicalId", .str logicalId), ("path", .str path), ("method", .str method)]

def report (e : EventError) : Report := ⟨e.code, e.message, e.details⟩

end EventError

/-- A failure that no rule names. The first three kinds carry the values they were raised with. -/
inductive Fault where
  /-- A value that is not acceptable. -/
  | invalidValue (arguments : List Json)
  /-- Something outside the program went wrong. -/
  | outside (arguments : List Json)
  /-- A field that has to be there is missing. -/
  | missingKey (arguments : List Json)
  /-- An item of a list that is joined to text is no text. -/
  | itemNotText (position : Nat) (kind : Text)
  /-- A value that is gone through has no items. -/
  | notIterable (kind : Text)
  /-- A value that is appended to text is no text. -/
  | notText (kind : Text)
  /-- A value that is used as an object is none. -/
  | notMapping (kind : Text)
  /-- A value that is asked for an optional field is no object. -/
  | noFields (kind : Text)
  /-- A value that holds other values is used as a key. -/
  | notKey (kind : Text)
  deriving DecidableEq

namespace Fault

/-- The text of a failure's arguments: nothing, the one value, or all of them in parentheses. -/
def argumentsText : List Json → Text
  | [] => ""
  | [argument] => argument.display
  | arguments => Json.rowLiteral arguments

/-- The text of a failure. A missing key is shown as a message spells values. -/
def text : Fault → Text
  | invalidValue arguments | outside arguments => argumentsText arguments
  | missingKey [argument] => argument.literal
  | missingKey arguments => argumentsText arguments
  | itemNotText position kind =>
      "sequence item " ++ toString position ++ ": expected str instance, " ++ kind ++ " found"
  | notIterable kind => "a value of kind " ++ kind ++ " has no items"
  | notText kind => "a value of kind " ++ kind ++ " is no text"
  | notMapping kind => "a value of kind " ++ kind ++ " is no object"
  | noFields kind => "a value of kind " ++ kind ++ " has no fields"
  | notKey kind => "a value of kind " ++ kind ++ " is no key"

def report (f : Fault) : Report :=
  ⟨"INTERNAL_ERROR", "Unexpected error while compiling event: " ++ f.text, []⟩

end Fault

/-- The report with parts of any kind. Details that count as given have to be an object. -/
def Report.ofGiven (code message details : Json) : Except Fault Json :=
  match details.truthy, details with
  | true, .obj fields => .ok (.obj (entries code message fields))
  | true, other => .error (.notMapping other.kind)
  | false, _ => .ok (.obj (entries code message []))

/-- A failure of one event, named by a rule or not. -/
inductive Failure where
  | rejected (cause : EventError)
  | unexpected (fault : Fault)
  deriving DecidableEq

def Failure.report : Failure → Report
  | rejected cause => cause.report
  | unexpected fault => fault.report

end TableGateway
