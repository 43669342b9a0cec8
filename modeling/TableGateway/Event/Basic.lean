import TableGateway.Failure
import TableGateway.Json.Loose
import TableGateway.Text.Split

/-!
# Events

An event binds one HTTP method and path to a table action. Values that the compiler passes on, such
as the table name, may be any JSON; null stands for an absent one.
-/

namespace TableGateway

/-!
## Actions

The table actions that an event can stand for.
-/

inductive Action where
  | putItem
  | getItem
  | deleteItem
  deriving DecidableEq, Repr

namespace Action

def all : List Action := [putItem, getItem, deleteItem]

def name : Action → Text
  | putItem => "PutItem"
  | getItem => "GetItem"
  | deleteItem => "DeleteItem"

def ofName? (name : Text) : Option Action := all.find? (·.name == name)

/-- The action of a configured value, which has to be one of the names. -/
def ofConfig (value : Json) : Except EventError Action :=
  match value with
  | .str name => match ofName? name with
    | some action => .ok action
    | none => .error (.unknownAction value)
  | _ => .error (.unknownAction value)

end Action

/-- What an event asks for: an action of the enumeration, or some other value. A name that is not
read through the enumeration is such a value. -/
inductive ActionChoice where
  | known (action : Action)
  | other (value : Json)
  deriving DecidableEq

/-!
## Blocks

Blocks of an entry, each of which has to be an object when it is there.
-/

namespace Event

/-- The fields of a block; a missing block is empty. -/
def blockFields (data : Json) (block : Text) : Except EventError (List (Text × Json)) :=
  match data with
  | .null => .ok []
  | .obj fields => .ok fields
  | other => .error (.blockNotObject block other.kind)

/-- The fields as an object, or null when there are none. -/
def objectOrNull (fields : List (Text × Json)) : Json :=
  if fields.isEmpty then .null else .obj fields

end Event

/-! ## Authorization -/

/-- Authorization settings; absent scopes are those of the authorizer. -/
structure Auth where
  authorizationType : Json := .str "NONE"
  authorizerId : Json := .null
  scopes : Option (List Json) := none
  deriving DecidableEq

namespace Auth

/-- The scopes of an `authorizationScopes` value, which has to be a list if it counts as given. -/
def scopesOfConfig (value : Json) : Except EventError (Option (List Json)) :=
  if value.truthy then
    match value with
    | .arr scopes => .ok (some scopes)
    | _ => .error .scopesNotList
  else .ok none

/-- The settings of the fields of a block. Without a type, an authorizer makes the type custom. -/
def ofFields (fields : List (Text × Json)) : Except EventError Auth :=
  let block := Json.obj fields
  let authorizerId := block.field "authorizerId"
  let otherwise := Json.str (if authorizerId.truthy then "CUSTOM" else "NONE")
  (scopesOfConfig (block.field "authorizationScopes")).map fun scopes =>
    ⟨(block.field "authorizationType").orElse otherwise, authorizerId, scopes⟩

def ofConfig (data : Json) : Except EventError Auth := do
  let fields ← Event.blockFields data "auth"
  ofFields fields

end Auth

/-!
## Cross-origin settings

The settings of the headers that allow other origins. A non-empty list of origins wins over the
single origin.
-/

structure Cors where
  origin : Json := .str "*"
  origins : List Json := []
  allowCredentials : Json := .bool false
  deriving DecidableEq

namespace Cors

/-- The origins of an `origins` value; one that does not count as given has none. -/
def originsOfConfig (value : Json) : Except Fault (List Json) :=
  if value.truthy then value.elements else .ok []

/-- The settings of a `cors` object. Without an origin any origin is allowed. -/
def ofFields (fields : List (Text × Json)) : Except Fault Cors :=
  (originsOfConfig (Json.field (.obj fields) "origins")).map fun origins =>
    { origin := (Entries.get? fields "origin").getD (.str "*")
      origins := origins
      allowCredentials := .bool (Json.field (.obj fields) "allowCredentials").truthy }

/-- The settings of a `cors` value: none, the default ones for true, those of an object. -/
def ofConfig (value : Json) : Except Failure (Option Cors) :=
  if value.truthy then
    match value with
    | .bool _ => .ok (some {})
    | .obj fields => ((ofFields fields).map some).mapError .unexpected
    | other => .error (.rejected (.corsNotObject other))
  else .ok none

def allowOriginHeader : Text := "method.response.header.Access-Control-Allow-Origin"

def allowCredentialsHeader : Text := "method.response.header.Access-Control-Allow-Credentials"

/-- The texts of a list of values from position `position` on; each has to be text. -/
def originTexts (position : Nat) : List Json → Except Fault (List Text)
  | [] => .ok []
  | .str s :: rest => (originTexts (position + 1) rest).map (s :: ·)
  | other :: _ => .error (.itemNotText position other.kind)

/-- The allowed origin: the origins joined by commas, or else the single origin. -/
def originText (cors : Cors) : Except Fault Text :=
  if cors.origins.isEmpty then .ok cors.origin.display
  else (originTexts 0 cors.origins).map (Text.join ',')

/-- The headers with their values, which are static text in single quotes. -/
def headers (cors : Cors) : Except Fault (List (Text × Json)) :=
  cors.originText.map fun origin =>
    (allowOriginHeader, .str ("'" ++ origin ++ "'"))
      :: if cors.allowCredentials.truthy then [(allowCredentialsHeader, .str "'true'")] else []

end Cors

/-!
## Keys

The source of a key attribute is a path parameter, a query parameter or a literal. Sources are tried
in this order; a key without a source that counts as given is left out of the request.
-/

/-- Where a key attribute comes from. -/
structure KeySource where
  attributeType : Json
  pathParam : Json
  queryStringParam : Json
  name : Json
  value : Json
  deriving DecidableEq

/-- A key attribute with its type and the expression of its value. -/
structure KeyAttribute where
  key : Json
  attributeType : Json
  attributeValue : Json
  deriving DecidableEq

/-- The two keys of an item. -/
inductive KeyRole where
  | hash
  | range
  deriving DecidableEq, Repr

/-- The label of a key in placeholders. -/
def KeyRole.label : KeyRole → Text
  | hash => "Hash"
  | range => "Range"

/-- The field of an event that holds a key. -/
def KeyRole.fieldName : KeyRole → Text
  | hash => "hashKey"
  | range => "rangeKey"

/-- A key source from its configuration, which is an object with an attribute type. -/
def KeySource.ofConfig (data : Json) : Except EventError KeySource :=
  match data with
  | .obj _ =>
      if (data.field "attributeType").truthy then
        .ok {
          attributeType := data.field "attributeType"
          pathParam := data.field "pathParam"
          queryStringParam := data.field "queryStringParam"
          name := data.field "name"
          value := data.field "value" }
      else .error (.keyWithoutType data)
  | _ => .error (.keyNotObject data)

/-- The key attribute of a source: path parameter, then query parameter, then literal name and
value. -/
def KeySource.resolve? (source : KeySource) : Option KeyAttribute :=
  if source.pathParam.truthy then
    some ⟨source.pathParam, source.attributeType,
      .str ("$input.params().path." ++ source.pathParam.display)⟩
  else if source.queryStringParam.truthy then
    some ⟨source.queryStringParam, source.attributeType,
      .str ("$input.params().querystring." ++ source.queryStringParam.display)⟩
  else if source.name.truthy && source.value.truthy then
    some ⟨source.name, source.attributeType, source.value⟩
  else none

/-- The values of the three placeholders that begin with `label`. -/
def KeyAttribute.values (k : KeyAttribute) (label : Text) : List (Text × Json) :=
  [(label ++ "Key", k.key), (label ++ "AttributeType", k.attributeType),
    (label ++ "AttributeValue", k.attributeValue)]

/-! ## The event -/

/-- One HTTP binding to a table. -/
structure Event where
  method : Text
  path : Text
  action : ActionChoice
  tableName : Json
  hashKey : Option KeySource := none
  rangeKey : Option KeySource := none
  condition : Json := .null
  auth : Auth := {}
  /-- Whether callers need an API key. -/
  keyRequired : Json := .bool false
  requestTemplates : Json := .null
  responseTemplates : Json := .null
  cors : Option Cors := none
  deriving DecidableEq

namespace Event

/-- The source of one of the two keys. -/
def keySource (event : Event) : KeyRole → Option KeySource
  | .hash => event.hashKey
  | .range => event.rangeKey

/-- The attribute of one of the two keys, when its source resolves. -/
def keyAttribute (event : Event) (role : KeyRole) : Option KeyAttribute :=
  event.keySource role |>.bind KeySource.resolve?

/-- The keys that were given but do not resolve. -/
def unresolvedKeys (event : Event) : List KeyRole :=
  [KeyRole.hash, KeyRole.range].filter fun role =>
    (event.keySource role).isSome && (event.keyAttribute role).isNone

end Event

end TableGateway
