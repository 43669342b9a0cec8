import Std.Time.DateTime.Timestamp
import TableGateway.Application
import TableGateway.Json.Writer
import TableGateway.Log.Record
import TableGateway.Settings.EnvFile

/-!
# The command line

Reads the environment, the file `.env` and the configuration, runs the application and prints its
log and then the template. Arguments are context values, such as `-c environment=prod`. Accounts
cannot be reached from here, so every lookup counts as undelivered.
-/

namespace TableGateway.CommandLine

/-- The variables that the application reads. -/
def variableNames : List String :=
  ["LOG_LEVEL", "ENVIRONMENT", "STAGE_NAME", "PROXY_CONFIG", "REST_API_NAME", "AWS_REGION",
    "CDK_DEFAULT_REGION", "AWS_ACCOUNT_ID", "CDK_DEFAULT_ACCOUNT"]

/-- The context values among the arguments; of two for one name the later one counts. -/
def contextOf : List String → List (Text × Json)
  | flag :: setting :: rest =>
      if flag = "-c" || flag = "--context" then
        let value := (Text.fromFirst '=' setting).drop 1
        Entries.merge [(Text.before '=' setting, .str value)] (contextOf rest)
      else contextOf (setting :: rest)
  | _ => []

/-- An account that no call reaches. -/
def unreachable : Account where
  failing := [(.listRestApis, .undelivered), (.listResources, .undelivered),
    (.describeTable, .undelivered)]

/-- The text of a file with its line ends unified. -/
def readFile (path : Text) : IO (Except FileError String) := do
  try
    let content ← IO.FS.readFile path.toString
    return .ok (String.ofList (Text.unifyLineEnds content.toList))
  catch
    | .inappropriateType .. => return .error .isDirectory
    | _ => return .error .notFound

/-- The variables of the process and those of the file `.env`. -/
def readEnvironment : IO Environment := do
  let given ← variableNames.filterMapM fun name => do
    return (← IO.getEnv name).map fun value => (Text.ofString name, Text.ofString value)
  match ← readFile ".env" with
  | .ok content => return (EnvFile.applyAll given (EnvFile.assignments content)).1
  | .error _ => return given

/-- What a run reads. The configuration is the only file. -/
def readInput (arguments : List String) : IO Application.Input := do
  let environment ← readEnvironment
  let context := Json.obj (contextOf arguments)
  let content ← match Settings.configPath environment (context.field "config") with
    | .str path => readFile path
    | _ => pure (.error .notFound)
  let now ← Std.Time.Timestamp.now
  return {
    context := context
    environment := environment
    files := fun _ => content
    account := unreachable
    clock := Log.timestamp now.toSecondsSinceUnixEpoch.val.toNat }

def errorText : Application.RunError → Text
  | .logger cause => cause.message
  | .pathNotText kind => "the path of the configuration is of kind " ++ kind
  | .config path cause => cause.message path
  | .failure cause => cause.report.message

def template (output : Application.Output) : Json :=
  .obj [("Description", .str output.description), ("Resources", output.stack.resources.toJson),
    ("Outputs", output.stack.outputs)]

/-- Runs the application and prints what it says. -/
def run (arguments : List String) : IO UInt32 := do
  let (outcome, progress) := Application.run (← readInput arguments)
  progress.lines.forM IO.println
  match outcome with
  | .ok output =>
      IO.println (template output).render
      return 0
  | .error cause =>
      IO.eprintln (errorText cause).toString
      return 1

end TableGateway.CommandLine

def main (arguments : List String) : IO UInt32 := TableGateway.CommandLine.run arguments
