import TableGateway.Api
import TableGateway.Event.Basic

/-!
# Request templates

The body that is sent to the table for each action. Keys that do not resolve are left out. A stored
item starts with its keys, each followed by a comma, and a loop copies the attributes of the request
body with the type tags that the caller sent.
-/

namespace TableGateway.Mapping

/-!
## Templates with placeholders

A template is fixed text with named slots. In its written form a slot is a name in braces behind a
dollar sign, and the deployment service fills it with the value of that name.
-/

/-- A piece of a template. -/
inductive Segment where
  | text (content : Text)
  | slot (name : Text)
  deriving DecidableEq

def Segment.written : Segment → Text
  | text content => content
  | slot name => "$\x7b" ++ name ++ "\x7d"

/-- A template with the values of its slots. -/
structure Template where
  segments : List Segment
  values : List (Text × Json)
  deriving DecidableEq

def Template.text (template : Template) : Text := template.segments.flatMap Segment.written

def Template.toJson (template : Template) : Json :=
  Intrinsic.sub template.text template.values

/-! ## Templates of the actions -/

def jsonContentType : Text := "application/json"

def formContentType : Text := "application/x-www-form-urlencoded"

/-- The content types that have templates. -/
def contentTypes : List Text := [jsonContentType, formContentType]

/-- The clause of one key: its name with its typed value. -/
def keyClause (role : KeyRole) : List Segment :=
  [.text "\"", .slot (role.label ++ "Key"),
    .text "\": \x7b\"", .slot (role.label ++ "AttributeType"),
    .text "\": \"", .slot (role.label ++ "AttributeValue"), .text "\"\x7d"]

/-- The keys of an event that resolve, in order. -/
def resolvedKeys (event : Event) : List (KeyRole × KeyAttribute) :=
  [KeyRole.hash, KeyRole.range].filterMap fun role => (event.keyAttribute role).map (role, ·)

/-- The values of the placeholders of the keys that resolve. -/
def keyValues (event : Event) : List (Text × Json) :=
  (resolvedKeys event).flatMap fun key => key.2.values key.1.label

/-- The clauses of the keys that resolve, with commas between them. -/
def keyObject (event : Event) : List Segment :=
  [Segment.text ","].intercalate ((resolvedKeys event).map fun key => keyClause key.1)

def conditionClause (event : Event) : List Segment :=
  if event.condition = .null then []
  else [.text ",\"ConditionExpression\": \"", .slot "ConditionExpression", .text "\""]

def conditionValue (event : Event) : List (Text × Json) :=
  if event.condition = .null then [] else [("ConditionExpression", event.condition)]

/-- The part of every template that names the table. -/
def tableClause : List Segment := [.text "\x7b\"TableName\": \"", .slot "TableName", .text "\","]

/-- Copies every attribute of the request body, then closes the item. -/
def bodyLoop : Text :=
  "\n      #set ($body = $util.parseJson($input.body))\n" ++
  "      #foreach( $key in $body.keySet())\n" ++
  "        #set ($item = $body.get($key))\n" ++
  "        #foreach( $type in $item.keySet())\n" ++
  "          \"$key\":\x7b\"$type\" : \"$item.get($type)\"\x7d\n" ++
  "        #if($foreach.hasNext()),#end\n" ++
  "        #end\n" ++
  "      #if($foreach.hasNext()),#end\n" ++
  "      #end\n" ++
  "    \x7d\n    "

def deleteItem (event : Event) : Template where
  segments := tableClause ++ [.text "\"Key\":\x7b"] ++ keyObject event ++ [.text "\x7d"]
    ++ conditionClause event ++ [.text "\x7d"]
  values := ("TableName", event.tableName) :: (keyValues event ++ conditionValue event)

/-- The template that reads an item. It has no condition. -/
def getItem (event : Event) : Template where
  segments := tableClause ++ [.text "\"Key\":\x7b"] ++ keyObject event ++ [.text "\x7d\x7d"]
  values := ("TableName", event.tableName) :: keyValues event

def putItem (event : Event) : Template where
  segments := tableClause ++ [.text "\"Item\": \x7b"]
    ++ ((resolvedKeys event).flatMap fun key => keyClause key.1 ++ [.text ","])
    ++ [.text bodyLoop] ++ conditionClause event ++ [.text "\x7d"]
  values := ("TableName", event.tableName) :: (keyValues event ++ conditionValue event)

/-- The default request template of an action. -/
def requestTemplateOf (event : Event) : Action → Template
  | .putItem => putItem event
  | .getItem => getItem event
  | .deleteItem => deleteItem event

/-- The default request template of an event; other values than actions have none. -/
def requestTemplate (event : Event) : Except EventError Template :=
  match event.action with
  | .known action => .ok (requestTemplateOf event action)
  | .other value => .error (.noTemplate value)

/-- The overrides of an event by content type, if there are any. -/
def requestOverrides (event : Event) : Except EventError (List (Text × Json)) :=
  match event.requestTemplates with
  | .obj overrides => .ok overrides
  | other => if other.truthy then .error (.requestOverrides other.kind) else .ok []

/-- The request templates of an event by content type: the default ones with the overrides written
over them. -/
def requestTemplates (event : Event) : Except EventError (List (Text × Json)) := do
  let overrides ← requestOverrides event
  let template ← requestTemplate event
  let defaults := contentTypes.map fun contentType => (contentType, template.toJson)
  return Entries.merge defaults overrides

end TableGateway.Mapping
