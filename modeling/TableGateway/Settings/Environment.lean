import TableGateway.Entries
import TableGateway.Json.Display

/-!
# The environment

Variables by name, and the settings that follow from them. A variable may be set to the empty text,
which most settings treat like an unset one.
-/

namespace TableGateway

/-! ## Variables -/

/-- Variables with their values. -/
abbrev Environment := List (Text × Text)

inductive EnvironmentError where
  | embeddedNull
  | nameWithEquals
  | emptyName
  deriving DecidableEq

namespace EnvironmentError

def message : EnvironmentError → Text
  | embeddedNull => "embedded null byte"
  | nameWithEquals => "illegal environment variable name"
  | emptyName => "[Errno 22] Invalid argument"

end EnvironmentError

namespace Environment

/-- The value of a variable that is set and not empty. -/
def given? (environment : Environment) (name : Text) : Option Text :=
  (Entries.get? environment name).filter (· != "")

/-- Sets a variable. Names are neither empty nor hold an equals sign, and no text holds a null
character. -/
def set (environment : Environment) (name value : Text) : Except EnvironmentError Environment :=
  if name.contains '\x00' || value.contains '\x00' then .error .embeddedNull
  else if name.contains '=' then .error .nameWithEquals
  else if name.isEmpty then .error .emptyName
  else .ok (Entries.put name value environment)

end Environment

/-!
## Region, names and stage

The region and its abbreviation, the names of resources, the stage, and the path of the
configuration.
-/

namespace Settings

/-- The short forms of regions in names. -/
def regionAbbreviations : List (Text × Text) :=
  [("us-east-1", "ue1"), ("us-east-2", "ue2"), ("us-west-1", "uw1"), ("us-west-2", "uw2"),
    ("eu-west-1", "ew1"), ("eu-west-2", "ew2"), ("eu-west-3", "ew3"), ("eu-central-1", "ec1"),
    ("eu-north-1", "en1"), ("ap-northeast-1", "ane1"), ("ap-northeast-2", "ane2"),
    ("ap-northeast-3", "ane3"), ("ap-southeast-1", "ase1"), ("ap-southeast-2", "ase2"),
    ("ap-south-1", "as1"), ("sa-east-1", "se1"), ("ca-central-1", "cc1")]

def defaultRegion : Text := "us-east-1"

def defaultStage : Text := "dev"

def defaultConfigFile : Text := "service-proxies.json"

/-- The region that is deployed to; empty variables count as unset. -/
def region (environment : Environment) : Text :=
  ((environment.given? "AWS_REGION").or (environment.given? "CDK_DEFAULT_REGION")).getD
    defaultRegion

/-- The short form of a region: from the table, or else its first three characters. -/
def abbreviation (region : Text) : Text :=
  (Entries.get? regionAbbreviations region).getD (region.take 3)

/-- The name of a resource with region and environment. -/
def resourceName (name abbreviation environmentName : Text) : Text :=
  name ++ "-" ++ abbreviation ++ "-" ++ environmentName

/-- The stage: a variable, else the name of the environment, else the default. -/
def stageName (environment : Environment) (environmentName : Json) : Json :=
  match environment.given? "STAGE_NAME" with
  | some stage => .str stage
  | none => environmentName.orElse (.str defaultStage)

/-- The path of the configuration as given: by context, else by a variable, else the default. -/
def configPath (environment : Environment) (contextValue : Json) : Json :=
  contextValue.orElse (.str ((environment.given? "PROXY_CONFIG").getD defaultConfigFile))

end Settings

end TableGateway
