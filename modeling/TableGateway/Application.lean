import TableGateway.Account.Lookup
import TableGateway.Event.Loader
import TableGateway.Json.Loose
import TableGateway.Settings.Config
import TableGateway.Stack

/-!
# The application

One run of the whole program: read the configuration, report its invalid entries, look for the
tables and the REST API that it names, and build the stack.
-/

namespace TableGateway.Application

structure Input where
  /-- Values given on the command line. -/
  context : Json := .obj []
  environment : Environment
  files : FileReader
  account : Account
  clock : Text

/-- Why a run ends early. -/
inductive RunError where
  | logger (cause : Log.OpenError)
  /-- The path of the configuration is no text. -/
  | pathNotText (kind : Text)
  | config (path : FilePath) (cause : Config.ConfigError)
  | failure (cause : Failure)
  deriving DecidableEq

structure Output where
  constructId : Text
  stackName : Text
  account : Option Text
  region : Text
  description : Text
  stack : Stack
  deriving DecidableEq

/-- What a run has done so far: its loggers, its lookups and the printed lines. -/
structure Progress where
  log : Log.Session
  lookups : LookupSession := {}
  lines : List String := []
  deriving DecidableEq

/-- A step of a run; a run that ends early keeps its progress. -/
abbrev Step := ExceptT RunError (StateM Progress)

/-- Opens a logger at the level of the environment. -/
def openLogger (input : Input) (name : Text) : Step Log.Logger := do
  let progress ← get
  let word := Entries.get? input.environment "LOG_LEVEL"
  let (session, opened) := progress.log.openLogger word (.str name) .null
  set { progress with log := session }
  match opened with
  | .ok logger => return logger
  | .error cause => throw (.logger cause)

def log (logger : Log.Logger) (records : List Log.Record) : Step Unit :=
  modify fun progress =>
    { progress with
      log := progress.log.afterRecords logger records
      lines := progress.lines ++ progress.log.lines logger records }

def findTable (input : Input) (name : Text) : Step (Option FoundTable) := do
  let progress ← get
  let (lookups, found) := progress.lookups.table input.environment input.account (.str name)
  set { progress with lookups := lookups }
  match found with
  | .ok found => return found
  | .error fault => throw (.failure (.unexpected fault))

def findRestApi (input : Input) (name : Text) : Step (Option FoundApi) := do
  let progress ← get
  let (lookups, found) := progress.lookups.restApi input.environment input.account (.str name)
  set { progress with lookups := lookups }
  match found with
  | .ok found => return found
  | .error fault => throw (.failure (.unexpected fault))

/-- A value given on the command line. Its numbers are doubles. -/
def contextValue (input : Input) (name : Text) : Json := (input.context.field name).rounded

/-- The name of the environment: by context, else by a variable, else that of development. -/
def environmentName (input : Input) : Json :=
  (contextValue input "environment").orElse
    (.str ((Entries.get? input.environment "ENVIRONMENT").getD "dev"))

def invalidEntryRecord (path : FilePath) (rejected : Nat × EventError) : Log.Record where
  level := .error
  message := .str "Invalid service proxy entry"
  fields := [("config", .str path.toText), ("index", .int rejected.1),
    ("errorCode", .str rejected.2.code), ("detail", .str rejected.2.message)]

/-- The plain table names of events, each once and in ascending order. -/
def tableNames (events : List Event) : List Text :=
  let names := events.filterMap fun event => match event.tableName with
    | .str name => some name
    | _ => none
  names.eraseDups.mergeSort fun a b => decide (a ≤ b)

def missingTableRecord (name : Text) : Log.Record where
  level := .warning
  message := .str "DynamoDB table not found"
  fields := [("table_name", .str name)]

/-- Warns about a table that is not found. -/
def checkTable (input : Input) (logger : Log.Logger) (name : Text) : Step Unit := do
  if (← findTable input name).isNone then log logger [missingTableRecord name]

def missingApiRecord (name : Text) : Log.Record where
  level := .warning
  message := .str "REST API not found, creating a new one"
  fields := [("rest_api_name", .str name)]

/-- The existing REST API that a variable names, as an object with its IDs. -/
def existingApi (input : Input) (logger : Log.Logger) : Step Json := do
  match input.environment.given? "REST_API_NAME" with
  | none => return .null
  | some name =>
      match ← findRestApi input name with
      | some found =>
          return .obj [("rest_api_id", found.restApiId), ("root_resource_id", found.rootResourceId)]
      | none =>
          log logger [missingApiRecord name]
          return .null

/-- The account that is deployed to, if one is given. -/
def accountId (environment : Environment) : Option Text :=
  (environment.given? "AWS_ACCOUNT_ID").or (Entries.get? environment "CDK_DEFAULT_ACCOUNT")

def configPath (input : Input) : Step FilePath :=
  match Settings.configPath input.environment (contextValue input "config") with
  | .str path => return FilePath.ofText path
  | other => throw (.pathNotText other.kind)

/-- The events of the configuration; invalid entries are logged. -/
def events (input : Input) (logger : Log.Logger) : Step (List Event) := do
  let path ← configPath input
  match Config.load input.files path with
  | .error cause => throw (.config path cause)
  | .ok entries =>
      match Loaded.ofEntries 0 entries with
      | .error fault => throw (.failure (.unexpected fault))
      | .ok loaded =>
          log logger (loaded.rejected.map (invalidEntryRecord path))
          return loaded.events

/-- Builds the stack with a logger of its own. -/
def buildStack (input : Input) (stackInput : StackInput) : Step Stack := do
  let logger ← openLogger input "stack"
  let run := Stack.build stackInput
  log logger run.records
  match run.outcome with
  | .ok stack => return stack
  | .error cause => throw (.failure cause)

def program (input : Input) : Step Output := do
  let logger ← openLogger input "app"
  let environmentName := environmentName input
  let region := Settings.region input.environment
  let abbreviation := Settings.abbreviation region
  let named (name : Text) := Settings.resourceName name abbreviation environmentName.display
  let events ← events input logger
  (tableNames events).forM (checkTable input logger)
  let existing ← existingApi input logger
  let stack ← buildStack input {
    events := events
    apiName := .str (named "dynamodb-proxy-api")
    stageName := Settings.stageName input.environment environmentName
    existing := existing }
  return {
    constructId := named "ServiceProxyStack"
    stackName := named "dynamodb-proxy"
    account := accountId input.environment
    region := region
    description :=
      "DynamoDB service proxy (" ++ abbreviation ++ "-" ++ environmentName.display ++ ")"
    stack := stack }

/-- Runs the program: how it ends, and what it has done. -/
def run (input : Input) : Except RunError Output × Progress :=
  (program input).run.run { log := { clock := input.clock } }

end TableGateway.Application
