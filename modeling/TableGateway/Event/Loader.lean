import TableGateway.Event.Basic
import TableGateway.Route

/-!
# Events from configuration

An entry for this service is an object with a `dynamodb` field. A valid one becomes an event; an
invalid one is reported with its position and does not hinder the others; entries for other services
are passed over.
-/

namespace TableGateway

namespace Event

/-- The HTTP methods that can be bound, in lower case. -/
def httpMethods : List Text :=
  ["get", "post", "put", "patch", "delete", "head", "options", "any"]

def requiredFields : List Text := ["path", "method", "action", "tableName"]

/-- Whether a value can stand for a response template: text, an object, or not given. -/
def isTemplate : Json → Bool
  | .str _ | .obj _ => true
  | other => !other.truthy

/-- Refuses the first configured response template of a wrong kind. -/
def checkTemplates (templates : List (Text × Json)) : Except EventError Unit :=
  match templates.find? fun entry => !isTemplate entry.2 with
  | none => .ok ()
  | some (outcome, template) => .error (.templateKind outcome template.kind)

/-- The response templates of an event, each of which has to be text or an object if given. -/
def responseOverrides (value : Json) : Except EventError Json := do
  let fields ← blockFields value "response.template"
  checkTemplates fields
  return objectOrNull fields

/-- A key that is configured, or none. -/
def keyOfConfig (value : Json) : Except EventError (Option KeySource) :=
  if value.truthy then (KeySource.ofConfig value).map some else .ok none

/-- The method of an event in lower case. -/
def methodOfConfig (value : Json) : Except EventError Text :=
  let method := Text.lower value.display
  if method ∈ httpMethods then .ok method else .error (.unknownMethod value method)

/-- The path of an event, still with its slashes. -/
def pathOfConfig : Json → Except EventError Text
  | .str path => .ok path
  | _ => .error .pathNotText

/-- Refuses an entry without one of the required fields. -/
def checkRequired (data : Json) : Except EventError Unit :=
  let missing := requiredFields.filter fun name => !(data.field name).truthy
  if missing.isEmpty then .ok () else .error (.missingFields missing)

/-- The event of a configured entry but for its cross-origin settings, which are read last. -/
def ofFields (fields : List (Text × Json)) : Except EventError Event := do
  let data := Json.obj fields
  checkRequired data
  let method ← methodOfConfig (data.field "method")
  let path ← pathOfConfig (data.field "path")
  let request ← blockFields (data.field "request") "request"
  let response ← blockFields (data.field "response") "response"
  let requestTemplates ← blockFields (Json.field (.obj request) "template") "request.template"
  let action ← Action.ofConfig (data.field "action")
  let hashKey ← keyOfConfig (data.field "hashKey")
  let rangeKey ← keyOfConfig (data.field "rangeKey")
  let auth ← Auth.ofConfig (data.field "auth")
  let responseTemplates ← responseOverrides (Json.field (.obj response) "template")
  return {
    method := method
    path := Route.trimPath path
    action := .known action
    tableName := data.field "tableName"
    hashKey := hashKey
    rangeKey := rangeKey
    condition := data.field "condition"
    auth := auth
    keyRequired := .bool (data.field "private").truthy
    requestTemplates := objectOrNull requestTemplates
    responseTemplates := responseTemplates }

def ofConfig (data : Json) : Except Failure Event := do
  let fields ← (blockFields data "dynamodb").mapError .rejected
  let event ← (ofFields fields).mapError .rejected
  let cors ← Cors.ofConfig (Json.field (.obj fields) "cors")
  return { event with cors := cors }

end Event

/-- The events of a configuration and the positions and causes of its invalid entries. -/
structure Loaded where
  events : List Event := []
  rejected : List (Nat × EventError) := []
  deriving DecidableEq

namespace Loaded

def serviceName : Text := "dynamodb"

def entryData? : Json → Option Json
  | .obj fields => Entries.get? fields serviceName
  | _ => none

/-- The events of the entries from position `position` on. Only a fault ends the loading. -/
def ofEntries (position : Nat) : List Json → Except Fault Loaded
  | [] => .ok {}
  | entry :: rest =>
      match entryData? entry with
      | none => ofEntries (position + 1) rest
      | some data =>
          match Event.ofConfig data with
          | .ok event =>
              (ofEntries (position + 1) rest).map fun more =>
                { more with events := event :: more.events }
          | .error (.rejected cause) =>
              (ofEntries (position + 1) rest).map fun more =>
                { more with rejected := (position, cause) :: more.rejected }
          | .error (.unexpected fault) => .error fault

def ofConfig (proxies : Json) : Except Fault Loaded := do
  let entries ← proxies.elements
  ofEntries 0 entries

def rejectionReport (position : Nat) (cause : EventError) : Json :=
  .obj (Entries.merge [("index", .int position)] cause.report.toFields)

end Loaded

end TableGateway
