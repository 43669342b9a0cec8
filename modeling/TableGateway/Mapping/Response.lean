import TableGateway.Mapping.Request

/-!
# Response templates

Templates per outcome of a call. Only reading an item has a default: it flattens the typed
attributes of the item into plain JSON. An override replaces the templates of its outcome.
-/

namespace TableGateway.Mapping

inductive Outcome where
  | success
  | clientError
  | serverError
  deriving DecidableEq, Repr

namespace Outcome

def all : List Outcome := [success, clientError, serverError]

/-- The name of an outcome in configuration. -/
def name : Outcome → Text
  | success => "success"
  | clientError => "clientError"
  | serverError => "serverError"

/-- The status code of an outcome. -/
def status : Outcome → Int
  | success => 200
  | clientError => 400
  | serverError => 500

/-- The status codes of the table service that lead to an outcome, as a pattern. -/
def pattern : Outcome → Text
  | success => "2\\d\x7b2\x7d"
  | clientError => "4\\d\x7b2\x7d"
  | serverError => "5\\d\x7b2\x7d"

end Outcome

/-- Flattens the typed attributes of the item that was read. Escaping for scripts also escapes
single quotes, which JSON does not allow, so that is undone. -/
def flattenItem : Text :=
  "#set($item = $input.path('$.Item'))\x7b" ++
  "#foreach($key in $item.keySet())" ++
  "#set ($value = $item.get($key))" ++
  "#foreach( $type in $value.keySet())" ++
  "\"$key\":\"$util.escapeJavaScript($value.get($type)).replaceAll(\"\\\\'\",\"'\")\"" ++
  "#if($foreach.hasNext()),#end" ++
  "#end" ++
  "#if($foreach.hasNext()),#end" ++
  "#end\x7d"

/-- The default templates of successful calls by content type. -/
def defaultResponseTemplates (event : Event) : List (Text × Json) :=
  match event.action with
  | .known .getItem => contentTypes.map fun contentType => (contentType, .str flattenItem)
  | _ => []

/-- The templates of an override: bare text is for JSON responses. -/
def overrideTemplates (outcome : Outcome) : Json → Except EventError (List (Text × Json))
  | .str template => .ok [(jsonContentType, .str template)]
  | .obj templates => .ok templates
  | other => .error (.responseOverride outcome.name other.kind)

structure ResponseTemplates where
  success : List (Text × Json)
  clientError : List (Text × Json) := []
  serverError : List (Text × Json) := []
  deriving DecidableEq

namespace ResponseTemplates

def get (templates : ResponseTemplates) : Outcome → List (Text × Json)
  | .success => templates.success
  | .clientError => templates.clientError
  | .serverError => templates.serverError

def set (templates : ResponseTemplates) (outcome : Outcome) (value : List (Text × Json)) :
    ResponseTemplates :=
  match outcome with
  | .success => { templates with success := value }
  | .clientError => { templates with clientError := value }
  | .serverError => { templates with serverError := value }

/-- Applies the overrides in their order. Unknown outcomes and values that do not count as given are
passed over. -/
def override (templates : ResponseTemplates) :
    List (Text × Json) → Except EventError ResponseTemplates
  | [] => .ok templates
  | (name, value) :: rest =>
      match Outcome.all.find? (·.name == name) with
      | none => override templates rest
      | some outcome =>
          if value.truthy then
            match overrideTemplates outcome value with
            | .ok replaced => override (templates.set outcome replaced) rest
            | .error cause => .error cause
          else override templates rest

def toJson (templates : ResponseTemplates) : Json :=
  .obj (Outcome.all.map fun outcome => (outcome.name, .obj (templates.get outcome)))

end ResponseTemplates

/-- The overrides of an event by the names of outcomes, if there are any. -/
def responseOverrides (event : Event) : Except EventError (List (Text × Json)) :=
  match event.responseTemplates with
  | .obj overrides => .ok overrides
  | other => if other.truthy then .error (.responseOverrides other.kind) else .ok []

def responseTemplates (event : Event) : Except EventError ResponseTemplates := do
  let overrides ← responseOverrides event
  ResponseTemplates.override { success := defaultResponseTemplates event } overrides

end TableGateway.Mapping
