import TableGateway.Json.Basic

/-!
# The REST API that methods attach to

Either the API of the stack itself, referred to by its logical ID, or an existing one given by its
IDs.
-/

namespace TableGateway

/-!
## References inside a template

A template refers to another resource by its logical ID, to an attribute of one, or to text whose
placeholders are filled in when the template is deployed.
-/

namespace Intrinsic

def ref (logicalId : Text) : Json := .obj [("Ref", .str logicalId)]

/-- An attribute of a resource. -/
def getAtt (logicalId name : Text) : Json :=
  .obj [("Fn::GetAtt", .arr [.str logicalId, .str name])]

/-- Text with named placeholders and their values. -/
def sub (text : Text) (values : List (Text × Json)) : Json :=
  .obj [("Fn::Sub", .arr [.str text, .obj values])]

end Intrinsic

/-! ## The API -/

def restApiLogicalId : Text := "ApiGatewayRestApi"

/-- How resources refer to their API and to its root resource. -/
structure Api where
  restApiId : Json
  rootResourceId : Json
  deriving DecidableEq

namespace Api

def own : Api :=
  ⟨Intrinsic.ref restApiLogicalId, Intrinsic.getAtt restApiLogicalId "RootResourceId"⟩

/-- An API given by its IDs; a null ID is that of the stack's own API. -/
def ofIds (restApiId rootResourceId : Json) : Api where
  restApiId := if restApiId = .null then own.restApiId else restApiId
  rootResourceId := if rootResourceId = .null then own.rootResourceId else rootResourceId

/-- An API counts as imported when its ID is plain text. -/
def isImported (api : Api) : Bool :=
  match api.restApiId with
  | .str _ => true
  | _ => false

end Api

structure RestApi where
  name : Json
  deriving DecidableEq

def RestApi.toJson (restApi : RestApi) : Json :=
  .obj [("Type", .str "AWS::ApiGateway::RestApi"),
    ("Properties", .obj [("Name", restApi.name),
      ("EndpointConfiguration", .obj [("Types", .arr [.str "EDGE"])])])]

/-!
## Deployment

The deployment of a stage, which waits for every method. Without methods there is nothing to deploy.
-/

def deploymentLogicalId : Text := "ApiGatewayDeployment"

structure Deployment where
  restApiId : Json
  stageName : Json
  methodIds : List Text
  deriving DecidableEq

namespace Deployment

/-- The deployment of a stage after the given methods. -/
def ofMethods? (api : Api) (stageName : Json) (methodIds : List Text) : Option Deployment :=
  if methodIds.isEmpty then none else some ⟨api.restApiId, stageName, methodIds⟩

def toJson (deployment : Deployment) : Json :=
  .obj [("Type", .str "AWS::ApiGateway::Deployment"),
    ("Properties", .obj [("RestApiId", deployment.restApiId), ("StageName", deployment.stageName)]),
    ("DependsOn", .arr (deployment.methodIds.map .str))]

end Deployment

end TableGateway
