import TableGateway.Compile.Pass
import TableGateway.Log.Logger

/-!
# The stack

The resources of a whole stack: the REST API unless an existing one is used, the path resources and
methods of the events, the role of the compiled events, and the deployment of the stage. The one
output is the address of the stage.
-/

namespace TableGateway

structure StackInput where
  events : List Event
  apiName : Json
  stageName : Json := .str "dev"
  /-- An existing REST API, as an object with its IDs; values that do not count as given mean none.
  -/
  existing : Json := .null
  strict : Bool := false
  deriving DecidableEq

structure Stack where
  api : Api
  result : Compile.Result
  resources : ResourceMap
  stageName : Text
  deriving DecidableEq

namespace Stack

/-- The API that the stack attaches to, with the resources that it starts from. -/
def start (input : StackInput) : Except Fault (Api × ResourceMap) :=
  if input.existing.truthy then
    match input.existing with
    | .obj fields =>
        match Entries.get? fields "rest_api_id", Entries.get? fields "root_resource_id" with
        | none, _ => .error (.missingKey [.str "rest_api_id"])
        | _, none => .error (.missingKey [.str "root_resource_id"])
        | some restApiId, some rootResourceId => .ok (Api.ofIds restApiId rootResourceId, [])
    | other => .error (.notMapping other.kind)
  else .ok (Api.own, ResourceMap.ownApi input.apiName)

/-- The map of the whole stack: that of the compilation, with role and deployment written over it.
-/
def assemble (api : Api) (stageName : Json) (result : Compile.Result) : ResourceMap :=
  Entries.merge (Entries.merge result.resources (ResourceMap.ofRole result.events))
    (ResourceMap.ofDeployment api stageName result.methodIds)

/-- The stack of an input. The stage has to be text, which shows only at the end. -/
def build (input : StackInput) : Compile.Run Stack :=
  match start input with
  | .error fault => ⟨[], .error (.unexpected fault)⟩
  | .ok (api, resources) =>
      (Compile.compile api input.strict input.events resources).bind fun result =>
        match input.stageName with
        | .str stageName =>
            .pure ⟨api, result, assemble api input.stageName result, stageName⟩
        | other => ⟨[], .error (.unexpected (.notText other.kind))⟩

/-- The address of the stage, with placeholders. -/
def endpointText (stageName : Text) : Text :=
  "https://$\x7bRestApiId\x7d.execute-api.$\x7bAWS::Region\x7d.$\x7bAWS::URLSuffix\x7d/"
    ++ stageName

/-- The address of the stage: the ID of an imported API, and a reference to the stack's own one if
not. -/
def endpoint (stack : Stack) : Json :=
  Intrinsic.sub (endpointText stack.stageName)
    [("RestApiId",
      if stack.api.isImported then stack.api.restApiId else Intrinsic.ref restApiLogicalId)]

def outputs (stack : Stack) : Json :=
  .obj [("ServiceEndpoint", .obj [("Description", .str "URL of the service proxy stage"),
    ("Value", stack.endpoint)])]

end Stack

end TableGateway
