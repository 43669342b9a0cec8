import TableGateway.Compile.Result

/-!
# The compilation pass

Events are folded one after another into a result. An event adds its method and the path resources
that are not there yet, or it fails and adds nothing but a report; what earlier events added is
never changed. A strict pass ends at the first failure.
-/

namespace TableGateway.Compile

/-- The entry of a logical ID, where a given null counts as no entry. -/
def held? (resources : ResourceMap) (logicalId : Text) : Option Resource :=
  match Entries.get? resources logicalId with
  | some (.given .null) => none
  | entry => entry

/-- The path resources that are not in the map yet. One whose ID is held by a different entry is a
collision. -/
def missingResources (resources : ResourceMap) (event : Event) :
    List (Text × PathResource) → Except EventError ResourceMap
  | [] => .ok []
  | (logicalId, needed) :: rest =>
      match held? resources logicalId with
      | none =>
          (missingResources resources event rest).map fun more => (logicalId, .path needed) :: more
      | some entry =>
          if Json.Same entry.toJson needed.toJson then missingResources resources event rest
          else .error (.pathTaken logicalId event.path event.method)

/-- The resources that an event's path still needs. -/
def pathResources (api : Api) (resources : ResourceMap) (event : Event) :
    Except EventError ResourceMap :=
  missingResources resources event (Route.resources api event.path)

/-- What an event adds to the map: the path resources it still needs, and its method last. -/
def additions (api : Api) (resources : ResourceMap) (event : Event) :
    Except Failure ResourceMap := do
  let method ← MethodResource.ofEvent api event
  let logicalId := event.methodLogicalId
  if (Entries.keys resources).contains logicalId then
    throw (.rejected (.methodTaken logicalId event.path event.method))
  let paths ← (pathResources api resources event).mapError .rejected
  return paths ++ [(logicalId, .method method)]

def warningsOf (index : Int) (event : Event) : List Warning :=
  event.unresolvedKeys.map fun role => ⟨index, role⟩

def warningRecord (event : Event) (warning : Warning) : Log.Record where
  level := .warning
  message := .str warning.message
  fields := [("index", .int warning.index), ("path", .str event.path),
    ("method", .str event.method)]

def skippedRecord (skipped : Skipped) : Log.Record where
  level := .error
  message := .str ("Skipping DynamoDB proxy event: " ++ skipped.failure.report.message)
  fields := [("index", .int skipped.index), ("errorCode", .str skipped.failure.report.code)]

def compiledRecord (index : Int) (logicalId : Text) : Log.Record where
  level := .debug
  message := .str "Compiled DynamoDB proxy method"
  fields := [("logicalId", .str logicalId), ("index", .int index)]

/-- Folds one event into the result. -/
def addEvent (api : Api) (strict : Bool) (result : Result) (index : Int) (event : Event) :
    Run Result :=
  let warnings := warningsOf index event
  let warned := warnings.map (warningRecord event)
  match additions api result.resources event with
  | .ok added =>
      let logicalId := event.methodLogicalId
      ⟨warned ++ [compiledRecord index logicalId],
        .ok { result with
          resources := Entries.merge result.resources added
          compiled := result.compiled ++ [⟨logicalId, event⟩]
          warnings := result.warnings ++ warnings }⟩
  | .error failure =>
      if strict then ⟨warned, .error failure⟩
      else
        let skipped : Skipped := ⟨index, failure⟩
        ⟨warned ++ [skippedRecord skipped],
          .ok { result with
            errors := result.errors ++ [skipped]
            warnings := result.warnings ++ warnings }⟩

/-- Folds events into a result, counting positions from `index`. -/
def addEvents (api : Api) (strict : Bool) (result : Result) (index : Int) : List Event → Run Result
  | [] => .pure result
  | event :: rest =>
      (addEvent api strict result index event).bind fun next =>
        addEvents api strict next (index + 1) rest

def summaryRecord (result : Result) : Log.Record where
  level := .info
  message := .str "Compiled DynamoDB proxy methods"
  fields := [("methods", .int result.compiled.length), ("errors", .int result.errors.length),
    ("warnings", .int result.warnings.length)]

/-- Compiles events in order, adding to the given map. -/
def compile (api : Api) (strict : Bool) (events : List Event) (resources : ResourceMap := []) :
    Run Result :=
  (addEvents api strict { resources := resources } 0 events).bind fun result =>
    ⟨[summaryRecord result], .ok result⟩

end TableGateway.Compile
