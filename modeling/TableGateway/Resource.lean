import TableGateway.Api
import TableGateway.Json.Loose
import TableGateway.Method
import TableGateway.Role

/-!
# Resources of a template

A resource map gives each logical ID one resource: one that was given from outside, or one of the
kinds that this library makes.
-/

namespace TableGateway

inductive Resource where
  | given (body : Json)
  | restApi (restApi : RestApi)
  | path (resource : PathResource)
  | method (resource : MethodResource)
  | role (role : Role)
  | deployment (deployment : Deployment)
  deriving DecidableEq

namespace Resource

def toJson : Resource → Json
  | given body => body
  | restApi r => r.toJson
  | path r => r.toJson
  | method r => r.toJson
  | role r => r.toJson
  | deployment r => r.toJson

end Resource

/-- Resources under their logical IDs, in order of first insertion. -/
abbrev ResourceMap := List (Text × Resource)

namespace ResourceMap

def ownApi (name : Json) : ResourceMap := [(restApiLogicalId, .restApi ⟨name⟩)]

/-- The map of the role of a list of events. -/
def ofRole (events : List Event) : ResourceMap :=
  (Role.ofEvents? events).toList.map fun role => (Method.roleLogicalId, .role role)

/-- The map of the deployment of a stage. -/
def ofDeployment (api : Api) (stageName : Json) (methodIds : List Text) : ResourceMap :=
  (Deployment.ofMethods? api stageName methodIds).toList.map fun deployment =>
    (deploymentLogicalId, .deployment deployment)

/-- A map that is given from outside. -/
def ofGiven (fields : List (Text × Json)) : ResourceMap :=
  fields.map fun field => (field.1, .given field.2)

def toJson (resources : ResourceMap) : Json :=
  .obj (resources.map fun entry => (entry.1, entry.2.toJson))

end ResourceMap

end TableGateway
