import TableGateway.Account.Basic
import TableGateway.Settings.Environment

/-!
# Lookups

A session makes one client per service, in the region of that moment, and keeps what lookups found.
Faults are not kept.
-/

namespace TableGateway

/-!
## Bounded caches

Answers by key, most recently used first. When the cache is full, the answer that was not used for
the longest time goes.
-/

/-- Kept answers, most recently used first. -/
structure Cache (κ α : Type) where
  entries : List (κ × α) := []
  deriving DecidableEq

namespace Cache

variable {κ α : Type} [DecidableEq κ]

def capacity : Nat := 128

/-- The answer of a key, and the cache after its use. -/
def use? (cache : Cache κ α) (key : κ) : Option (α × Cache κ α) :=
  (cache.entries.lookup key).map fun value =>
    (value, ⟨(key, value) :: cache.entries.filter fun entry => entry.1 ≠ key⟩)

/-- Keeps an answer, in the place of the one that was not used for the longest time if need be. -/
def keep (cache : Cache κ α) (key : κ) (value : α) : Cache κ α :=
  ⟨((key, value) :: cache.entries).take capacity⟩

end Cache

/-! ## Sessions -/

/-- The clients that were made, with their regions, and the kept answers. -/
structure LookupSession where
  clients : List (Json × Text) := []
  restApis : Cache Json (Option FoundApi) := {}
  tables : Cache Json (Option FoundTable) := {}
  deriving DecidableEq

namespace LookupSession

/-- The region of a new client. An empty variable for the default region is taken as it is. -/
def clientRegion (environment : Environment) : Text :=
  ((environment.given? "AWS_REGION").or (Entries.get? environment "CDK_DEFAULT_REGION")).getD
    Settings.defaultRegion

/-- Makes the client of a service unless there is one. -/
def withClient (session : LookupSession) (environment : Environment) (service : Json) :
    LookupSession :=
  if session.clients.any fun client => decide (Json.Same client.1 service) then session
  else { session with clients := session.clients ++ [(service, clientRegion environment)] }

/-- A value that is used as a key, which holds no other values. -/
def checkKey (key : Json) : Except Fault Unit :=
  match key with
  | .arr _ | .obj _ => .error (.notKey key.kind)
  | _ => .ok ()

def getClient (session : LookupSession) (environment : Environment) (service : Json) :
    Except Fault LookupSession :=
  (checkKey service).map fun _ => session.withClient environment service

/-- Under which key the answer for a name is kept. Texts and integers are keys by themselves; other
plain values are keys by their value, in a class of their own. -/
def cacheKey (name : Json) : Except Fault Json :=
  (checkKey name).map fun _ =>
    match name with
    | .str _ | .int _ => name
    | plain => .arr [plain.normal]

def restApi (session : LookupSession) (environment : Environment) (account : Account)
    (name : Json) : LookupSession × Except Fault (Option FoundApi) :=
  match cacheKey name with
  | .error fault => (session, .error fault)
  | .ok key =>
      match session.restApis.use? key with
      | some (found, used) => ({ session with restApis := used }, .ok found)
      | none =>
          let session := session.withClient environment (.str "apigateway")
          match account.findRestApi name with
          | .ok found => ({ session with restApis := session.restApis.keep key found }, .ok found)
          | .error fault => (session, .error fault)

def table (session : LookupSession) (environment : Environment) (account : Account)
    (name : Json) : LookupSession × Except Fault (Option FoundTable) :=
  match cacheKey name with
  | .error fault => (session, .error fault)
  | .ok key =>
      match session.tables.use? key with
      | some (found, used) => ({ session with tables := used }, .ok found)
      | none =>
          let session := session.withClient environment (.str "dynamodb")
          match account.findTable name with
          | .ok found => ({ session with tables := session.tables.keep key found }, .ok found)
          | .error fault => (session, .error fault)

/-- Forgets the kept answers about APIs, but not the clients. -/
def clearRestApis (session : LookupSession) : LookupSession := { session with restApis := {} }

/-- Forgets the kept answers about tables, but not the clients. -/
def clearTables (session : LookupSession) : LookupSession := { session with tables := {} }

def clearAnswers (session : LookupSession) : LookupSession := session.clearRestApis.clearTables

end LookupSession

end TableGateway
