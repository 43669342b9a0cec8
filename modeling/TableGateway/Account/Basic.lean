import TableGateway.Json.Loose

/-!
# An account

What an account answers to the three calls that lookups make: pages of REST APIs, pages of the
resources of an API, and descriptions of tables. A call can be made to fail.
-/

namespace TableGateway

/-- The calls that lookups make. -/
inductive AccountCall where
  | listRestApis
  | listResources
  | describeTable
  deriving DecidableEq

/-- How a call fails: refused by the service, not carried through, or for another reason. -/
inductive CallFailure where
  | refused
  | undelivered
  | other
  deriving DecidableEq

/-- The answers of an account. -/
structure Account where
  restApis : List Json := []
  resources : List (Text × List Json) := []
  tables : List (Text × Json) := []
  failing : List (AccountCall × CallFailure) := []
  deriving DecidableEq

structure FoundApi where
  restApiId : Json
  rootResourceId : Json
  deriving DecidableEq

structure FoundTable where
  tableName : Json
  tableArn : Json
  deriving DecidableEq

namespace Account

/-- Why a lookup yields nothing: a call that services refuse or that is not delivered counts as
finding nothing, everything else is a fault. -/
inductive Stop where
  | nothing
  | fault (fault : Fault)
  deriving DecidableEq

/-- Makes a call, which goes through unless the account lets it fail. -/
def call (account : Account) (call : AccountCall) : Except Stop Unit :=
  match account.failing.lookup call with
  | none => .ok ()
  | some .other => .error (.fault (.outside []))
  | some _ => .error .nothing

/-- A field that a value has to have. -/
def required (j : Json) (name : Text) : Except Stop Json :=
  match j with
  | .obj fields => match Entries.get? fields name with
    | some value => .ok value
    | none => .error (.fault (.missingKey [.str name]))
  | other => .error (.fault (.notMapping other.kind))

/-- The items of a page; a page without them is empty. -/
def pageItems (page : Json) : Except Stop (List Json) :=
  match page with
  | .obj fields => match Entries.get? fields "items" with
    | some items => items.elements.mapError .fault
    | none => .ok []
  | other => .error (.fault (.noFields other.kind))

def firstAmong {α : Type} (pick : Json → Except Stop (Option α)) :
    List Json → Except Stop (Option α)
  | [] => .ok none
  | item :: rest =>
      match pick item with
      | .error stop => .error stop
      | .ok (some found) => .ok (some found)
      | .ok none => firstAmong pick rest

/-- The first item that `pick` picks on the pages, which are read one after another. -/
def firstOnPages {α : Type} (pick : Json → Except Stop (Option α)) :
    List Json → Except Stop (Option α)
  | [] => .ok none
  | page :: rest =>
      match (pageItems page).bind (firstAmong pick) with
      | .error stop => .error stop
      | .ok (some found) => .ok (some found)
      | .ok none => firstOnPages pick rest

def pickRoot (resource : Json) : Except Stop (Option Json) :=
  match resource with
  | .obj _ =>
      if resource.field "path" = .str "/" then (required resource "id").map some else .ok none
  | other => .error (.fault (.noFields other.kind))

def pickNamed (name api : Json) : Except Stop (Option Json) :=
  (required api "name").map fun found => if Json.Same found name then some api else none

/-- The pages of the resources of an API; an unknown API has none. -/
def resourcePages (account : Account) : Json → List Json
  | .str restApiId => (Entries.get? account.resources restApiId).getD []
  | _ => []

/-- The ID of the root resource of an API, or null. -/
def rootResourceId (account : Account) (restApiId : Json) : Except Stop Json := do
  account.call .listResources
  let root ← firstOnPages pickRoot (account.resourcePages restApiId)
  return root.getD .null

/-- The IDs of an API; the root resource is looked up when the API does not name it. -/
def idsOf (account : Account) (api : Json) : Except Stop FoundApi := do
  let restApiId ← required api "id"
  let named := api.field "rootResourceId"
  let rootResourceId ← if named.truthy then pure named else account.rootResourceId restApiId
  return ⟨restApiId, rootResourceId⟩

/-- A search that stops without a fault has found nothing. -/
def settle {α : Type} : Except Stop (Option α) → Except Fault (Option α)
  | .ok found => .ok found
  | .error .nothing => .ok none
  | .error (.fault fault) => .error fault

def findRestApi (account : Account) (name : Json) : Except Fault (Option FoundApi) :=
  settle do
    account.call .listRestApis
    match ← firstOnPages (pickNamed name) account.restApis with
    | none => return none
    | some api => (account.idsOf api).map some

def description? (account : Account) : Json → Option Json
  | .str name => Entries.get? account.tables name
  | _ => none

/-- What a description says about its table. -/
def tableOf (description : Json) : Except Stop FoundTable := do
  let tableName ← required description "TableName"
  let tableArn ← required description "TableArn"
  return ⟨tableName, tableArn⟩

def findTable (account : Account) (name : Json) : Except Fault (Option FoundTable) :=
  settle do
    account.call .describeTable
    match account.description? name with
    | none => return none
    | some description => (tableOf description).map some

end Account

end TableGateway
