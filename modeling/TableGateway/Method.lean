import TableGateway.Mapping.Response
import TableGateway.Route

/-!
# Methods

The method resource of an event: its HTTP method and authorization, the resource it is served at,
the integration and the declared responses.
-/

namespace TableGateway

namespace Method

/-!
## Responses

The responses that the integration maps and those that the method declares, one of each per outcome.
The cross-origin headers are mapped on one side and declared on the other.
-/

/-- The response that the integration maps for an outcome. -/
def integrationResponse (templates : Mapping.ResponseTemplates) (outcome : Mapping.Outcome) :
    Json :=
  .obj [("StatusCode", .int outcome.status), ("SelectionPattern", .str outcome.pattern),
    ("ResponseParameters", .obj []), ("ResponseTemplates", .obj (templates.get outcome))]

/-- The responses that the integration maps, without cross-origin headers. -/
def integrationResponses (event : Event) : Except EventError (List Json) := do
  let templates ← Mapping.responseTemplates event
  return Mapping.Outcome.all.map (integrationResponse templates)

/-- Maps headers in one response, over the parameters it has. -/
def addHeaders (headers : List (Text × Json)) (response : Json) : Except Fault Json :=
  match response with
  | .obj fields =>
      match (Entries.get? fields "ResponseParameters").getD (.obj []) with
      | .obj parameters =>
          let mapped := Entries.merge parameters headers
          .ok (.obj (Entries.put "ResponseParameters" (.obj mapped) fields))
      | other => .error (.notMapping other.kind)
  | other => .error (.notMapping other.kind)

/-- Maps the cross-origin headers in all responses; without such settings the responses stay as they
are. -/
def addCors (cors : Option Cors) (responses : List Json) : Except Fault (List Json) :=
  match cors with
  | none => .ok responses
  | some cors => do
      let headers ← cors.headers
      responses.mapM (addHeaders headers)

/-- A response that a method declares, with the names of its headers. -/
structure DeclaredResponse where
  headers : List Text
  status : Int
  deriving DecidableEq

def DeclaredResponse.toJson (response : DeclaredResponse) : Json :=
  .obj [("ResponseParameters", .obj (response.headers.map fun header => (header, .bool true))),
    ("ResponseModels", .obj []), ("StatusCode", .int response.status)]

/-- The responses that the method of an event declares. -/
def declaredResponses (event : Event) : Except Fault (List DeclaredResponse) := do
  let headers ← match event.cors with
    | none => pure []
    | some cors => cors.headers
  return Mapping.Outcome.all.map fun outcome => ⟨Entries.keys headers, outcome.status⟩

/-!
## Integration

The call that a method makes to the table service: always a POST to the endpoint of the action, with
the credentials of the stack's role.
-/

/-- The logical ID of the role that calls the table service. -/
def roleLogicalId : Text := "ApigatewayToDynamodbRole"

/-- The endpoint of an action, with a placeholder for its name. -/
def actionUri : Text :=
  "arn:$\x7bAWS::Partition\x7d:apigateway:$\x7bAWS::Region\x7d:dynamodb:action/$\x7baction\x7d"

structure Integration where
  action : Action
  requestTemplates : List (Text × Json)
  responses : List Json
  deriving DecidableEq

def Integration.toJson (integration : Integration) : Json :=
  .obj [("IntegrationHttpMethod", .str "POST"), ("Type", .str "AWS"),
    ("Credentials", Intrinsic.getAtt roleLogicalId "Arn"),
    ("Uri", Intrinsic.sub actionUri [("action", .str integration.action.name)]),
    ("PassthroughBehavior", .str "NEVER"),
    ("RequestTemplates", .obj integration.requestTemplates),
    ("IntegrationResponses", .arr integration.responses)]

def integration (event : Event) : Except Failure Integration := do
  let requestTemplates ← (Mapping.requestTemplates event).mapError .rejected
  match event.action with
  | .other value => throw (.rejected (.noTemplate value))
  | .known action =>
      let mapped ← (integrationResponses event).mapError .rejected
      let responses ← (addCors event.cors mapped).mapError .unexpected
      return ⟨action, requestTemplates, responses⟩

end Method

/-! ## The method -/

structure MethodResource where
  httpMethod : Text
  auth : Auth
  keyRequired : Bool
  resourceId : Json
  restApiId : Json
  integration : Method.Integration
  responses : List Method.DeclaredResponse
  deriving DecidableEq

namespace MethodResource

/-- The scopes, when there are any. -/
def scopeProperties (auth : Auth) : List (Text × Json) :=
  match auth.scopes with
  | some (scope :: scopes) => [("AuthorizationScopes", .arr (scope :: scopes))]
  | _ => []

/-- The authorizer, when it counts as given. -/
def authorizerProperties (auth : Auth) : List (Text × Json) :=
  if auth.authorizerId.truthy then [("AuthorizerId", auth.authorizerId)] else []

def authProperties (auth : Auth) : List (Text × Json) :=
  ("AuthorizationType", auth.authorizationType)
    :: (scopeProperties auth ++ authorizerProperties auth)

/-- The properties of what is served, and where. -/
def servedProperties (m : MethodResource) : List (Text × Json) :=
  [("ApiKeyRequired", .bool m.keyRequired), ("ResourceId", m.resourceId),
    ("RestApiId", m.restApiId), ("Integration", m.integration.toJson),
    ("MethodResponses", .arr (m.responses.map Method.DeclaredResponse.toJson))]

def properties (m : MethodResource) : List (Text × Json) :=
  ("HttpMethod", .str m.httpMethod) :: ("RequestParameters", .obj [])
    :: (authProperties m.auth ++ servedProperties m)

def toJson (m : MethodResource) : Json :=
  .obj [("Type", .str "AWS::ApiGateway::Method"), ("Properties", .obj m.properties)]

/-- The method resource of an event. -/
def ofEvent (api : Api) (event : Event) : Except Failure MethodResource := do
  let integration ← Method.integration event
  let responses ← (Method.declaredResponses event).mapError .unexpected
  return {
    httpMethod := Text.upper event.method
    auth := event.auth
    keyRequired := event.keyRequired.truthy
    resourceId := Route.resourceId api event.path
    restApiId := api.restApiId
    integration := integration
    responses := responses }

end MethodResource

/-- The logical ID of an event's method. -/
def Event.methodLogicalId (event : Event) : Text :=
  Route.methodLogicalId (Route.pathName event.path) event.method

end TableGateway
