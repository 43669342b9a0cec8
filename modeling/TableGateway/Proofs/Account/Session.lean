import TableGateway.Proofs.Account.Cache
import TableGateway.Proofs.Account.Lookup

/-! # Runs of lookups

A session goes through lookups, calls for a client, changes of the environment and the forgetting of
the answers of either lookup, in any order. While the account stands still the kept answers do not
show: every answer is that of a session which keeps none, and both make the same clients, at most
one per service. -/

namespace TableGateway.LookupSession

/-! ## Steps -/

/-- What is done in a session. -/
inductive Step where
  | restApi (name : Text)
  | table (name : Text)
  | getClient (service : Json)
  | clearRestApis
  | clearTables
  | enter (environment : Environment)

/-- What a step answers. -/
inductive Answer where
  | restApi (found : Except Fault (Option FoundApi))
  | table (found : Except Fault (Option FoundTable))
  | client (made : Except Fault Unit)
  | done

/-- A session with the environment it is in. -/
structure Place where
  environment : Environment
  session : LookupSession

namespace Place

/-- A call for a client, which leaves the session as it was when it fails. -/
def getClient (place : Place) (service : Json) : Place × Answer :=
  match place.session.getClient place.environment service with
  | .ok session => ({ place with session }, .client (.ok ()))
  | .error fault => (place, .client (.error fault))

/-- Makes the client of a service unless there is one. -/
def withClient (place : Place) (service : Json) : Place :=
  { place with session := place.session.withClient place.environment service }

/-- A step of a session that keeps what its lookups find. -/
def keeping (account : Account) (place : Place) : Step → Place × Answer
  | .restApi name =>
      let (session, found) := place.session.restApi place.environment account (.str name)
      ({ place with session }, .restApi found)
  | .table name =>
      let (session, found) := place.session.table place.environment account (.str name)
      ({ place with session }, .table found)
  | .getClient service => place.getClient service
  | .clearRestApis => ({ place with session := place.session.clearRestApis }, .done)
  | .clearTables => ({ place with session := place.session.clearTables }, .done)
  | .enter environment => ({ place with environment }, .done)

/-- A step of a session that asks the account at every lookup, through a client. -/
def asking (account : Account) (place : Place) : Step → Place × Answer
  | .restApi name =>
      (place.withClient (.str "apigateway"), .restApi (account.findRestApi (.str name)))
  | .table name => (place.withClient (.str "dynamodb"), .table (account.findTable (.str name)))
  | .getClient service => place.getClient service
  | .clearRestApis | .clearTables => (place, .done)
  | .enter environment => ({ place with environment }, .done)

/-- Goes through steps in order, and gathers their answers. -/
def run (perform : Place → Step → Place × Answer) (place : Place) :
    List Step → Place × List Answer
  | [] => (place, [])
  | step :: rest =>
      let (next, answer) := perform place step
      let (last, answers) := run perform next rest
      (last, answer :: answers)

end Place

/-! ## Clients -/

/-- Whether the client of a service was made. -/
def HasClient (session : LookupSession) (service : Json) : Prop :=
  ∃ client ∈ session.clients, Json.Same client.1 service

/-- No two clients were made for one service. -/
def DistinctClients (session : LookupSession) : Prop :=
  session.clients.Pairwise fun earlier later => ¬ Json.Same earlier.1 later.1

variable {session : LookupSession} {environment : Environment} {service : Json}

theorem withClient_of_hasClient (h : session.HasClient service) (environment : Environment) :
    session.withClient environment service = session := by
  unfold withClient
  rw [if_pos]
  simpa [HasClient] using h

theorem clients_withClient_of_not_hasClient (h : ¬ session.HasClient service)
    (environment : Environment) :
    (session.withClient environment service).clients =
      session.clients ++ [(service, clientRegion environment)] := by
  unfold withClient
  rw [if_neg]
  simpa [HasClient] using h

/-- Making a client changes nothing but the clients. -/
theorem withClient_eq (session : LookupSession) (environment : Environment) (service : Json) :
    session.withClient environment service =
      { session with clients := (session.withClient environment service).clients } := by
  unfold withClient
  split <;> rfl

@[simp] theorem restApis_withClient (session : LookupSession) (environment : Environment)
    (service : Json) : (session.withClient environment service).restApis = session.restApis := by
  rw [withClient_eq]

@[simp] theorem tables_withClient (session : LookupSession) (environment : Environment)
    (service : Json) : (session.withClient environment service).tables = session.tables := by
  rw [withClient_eq]

theorem hasClient_withClient (session : LookupSession) (environment : Environment)
    (service : Json) : (session.withClient environment service).HasClient service := by
  by_cases h : session.HasClient service
  · rwa [withClient_of_hasClient h]
  · refine ⟨(service, clientRegion environment), ?_, Json.Same.refl service⟩
    simp [clients_withClient_of_not_hasClient h]

theorem HasClient.withClient {other : Json} (h : session.HasClient other)
    (environment : Environment) (service : Json) :
    (session.withClient environment service).HasClient other := by
  by_cases hs : session.HasClient service
  · rwa [withClient_of_hasClient hs]
  · obtain ⟨client, hm, hsame⟩ := h
    refine ⟨client, ?_, hsame⟩
    rw [clients_withClient_of_not_hasClient hs]
    exact List.mem_append_left _ hm

theorem DistinctClients.withClient (h : session.DistinctClients) (environment : Environment)
    (service : Json) : (session.withClient environment service).DistinctClients := by
  by_cases hs : session.HasClient service
  · rwa [withClient_of_hasClient hs]
  · unfold DistinctClients
    rw [clients_withClient_of_not_hasClient hs, List.pairwise_append]
    refine ⟨h, List.pairwise_singleton _ _, ?_⟩
    rintro earlier he later hl hsame
    obtain rfl := List.mem_singleton.mp hl
    exact hs ⟨earlier, he, hsame⟩

/-- Which clients there are afterwards depends on the clients before alone. -/
theorem clients_withClient_congr {other : LookupSession} (h : session.clients = other.clients)
    (environment : Environment) (service : Json) :
    (session.withClient environment service).clients =
      (other.withClient environment service).clients := by
  unfold withClient
  rw [h]
  split
  · exact h
  · rfl

/-! ## Kept answers -/

variable {account : Account}

/-- Whether all kept answers are those of the account, and were asked for through a client. -/
structure Sound (account : Account) (session : LookupSession) : Prop where
  restApis : session.restApis.Recalls account.findRestApi
  tables : session.tables.Recalls account.findTable
  restApiClient : session.restApis.entries ≠ [] → session.HasClient (.str "apigateway")
  tableClient : session.tables.entries ≠ [] → session.HasClient (.str "dynamodb")

namespace Sound

theorem empty (account : Account) : Sound account {} :=
  ⟨Cache.recalls_empty _, Cache.recalls_empty _, fun h => absurd rfl h, fun h => absurd rfl h⟩

theorem withClient (h : Sound account session) (environment : Environment) (service : Json) :
    Sound account (session.withClient environment service) := by
  refine ⟨?_, ?_, ?_, ?_⟩
  · simpa using h.restApis
  · simpa using h.tables
  · intro hne
    exact (h.restApiClient (by simpa using hne)).withClient environment service
  · intro hne
    exact (h.tableClient (by simpa using hne)).withClient environment service

theorem clearRestApis (h : Sound account session) : Sound account session.clearRestApis :=
  ⟨Cache.recalls_empty _, h.tables, fun hne => absurd rfl hne, h.tableClient⟩

theorem clearTables (h : Sound account session) : Sound account session.clearTables :=
  ⟨h.restApis, Cache.recalls_empty _, h.restApiClient, fun hne => absurd rfl hne⟩

/-- New answers may be kept once their client was made. -/
theorem withRestApis (h : Sound account session) {kept : Cache Json (Option FoundApi)}
    (hk : kept.Recalls account.findRestApi) (hc : session.HasClient (.str "apigateway")) :
    Sound account { session with restApis := kept } :=
  ⟨hk, h.tables, fun _ => hc, h.tableClient⟩

theorem withTables (h : Sound account session) {kept : Cache Json (Option FoundTable)}
    (hk : kept.Recalls account.findTable) (hc : session.HasClient (.str "dynamodb")) :
    Sound account { session with tables := kept } :=
  ⟨h.restApis, hk, h.restApiClient, fun _ => hc⟩

/-- A lookup is a search through the kept answers. Its client is there when an answer is, so a
kept answer saves no client. -/
theorem restApi_eq (h : Sound account session) (environment : Environment) (name : Text) :
    session.restApi environment account (.str name) =
      ({ session.withClient environment (.str "apigateway") with
          restApis := (session.restApis.seek (.str name) (account.findRestApi (.str name))).2 },
        (session.restApis.seek (.str name) (account.findRestApi (.str name))).1) := by
  have hk : cacheKey (.str name) = .ok (.str name) := rfl
  unfold LookupSession.restApi
  rw [hk]
  cases hu : session.restApis.use? (.str name) with
  | some kept =>
      obtain ⟨found, used⟩ := kept
      have hc := h.restApiClient (List.ne_nil_of_mem (Cache.mem_of_use? hu).1)
      simp only [hu, Cache.seek_of_use? hu, withClient_of_hasClient hc]
  | none =>
      cases hf : account.findRestApi (.str name) with
      | ok found => simp [Cache.seek, hu]
      | error fault => simpa [Cache.seek, hu] using withClient_eq session environment _

theorem table_eq (h : Sound account session) (environment : Environment) (name : Text) :
    session.table environment account (.str name) =
      ({ session.withClient environment (.str "dynamodb") with
          tables := (session.tables.seek (.str name) (account.findTable (.str name))).2 },
        (session.tables.seek (.str name) (account.findTable (.str name))).1) := by
  have hk : cacheKey (.str name) = .ok (.str name) := rfl
  unfold LookupSession.table
  rw [hk]
  cases hu : session.tables.use? (.str name) with
  | some kept =>
      obtain ⟨found, used⟩ := kept
      have hc := h.tableClient (List.ne_nil_of_mem (Cache.mem_of_use? hu).1)
      simp only [hu, Cache.seek_of_use? hu, withClient_of_hasClient hc]
  | none =>
      cases hf : account.findTable (.str name) with
      | ok found => simp [Cache.seek, hu]
      | error fault => simpa [Cache.seek, hu] using withClient_eq session environment _

theorem restApi (h : Sound account session) (environment : Environment) (name : Text) :
    Sound account (session.restApi environment account (.str name)).1 := by
  rw [h.restApi_eq]
  exact (h.withClient environment _).withRestApis (h.restApis.seek_snd _)
    (hasClient_withClient session environment _)

theorem table (h : Sound account session) (environment : Environment) (name : Text) :
    Sound account (session.table environment account (.str name)).1 := by
  rw [h.table_eq]
  exact (h.withClient environment _).withTables (h.tables.seek_snd _)
    (hasClient_withClient session environment _)

end Sound

/-! ## Runs -/

namespace Place

/-- Two sessions in one environment with the same clients, the first of which may keep answers of
the account. -/
structure Mirrors (account : Account) (kept plain : Place) : Prop where
  environment : kept.environment = plain.environment
  clients : kept.session.clients = plain.session.clients
  sound : Sound account kept.session

variable {kept plain : Place}

theorem Mirrors.withClient (h : Mirrors account kept plain) (service : Json) :
    (kept.session.withClient kept.environment service).clients =
      (plain.session.withClient plain.environment service).clients := by
  rw [h.environment]
  exact clients_withClient_congr h.clients plain.environment service

theorem Mirrors.getClient (h : Mirrors account kept plain) (service : Json) :
    (kept.getClient service).2 = (plain.getClient service).2 ∧
      Mirrors account (kept.getClient service).1 (plain.getClient service).1 := by
  unfold Place.getClient LookupSession.getClient
  cases checkKey service with
  | error fault => exact ⟨rfl, h⟩
  | ok _ =>
      exact ⟨rfl, h.environment, h.withClient service, h.sound.withClient kept.environment service⟩

/-- Every step answers the same in both. -/
theorem Mirrors.step (h : Mirrors account kept plain) (step : Step) :
    (keeping account kept step).2 = (asking account plain step).2 ∧
      Mirrors account (keeping account kept step).1 (asking account plain step).1 := by
  cases step with
  | restApi name =>
      refine ⟨?_, h.environment, ?_, h.sound.restApi kept.environment name⟩
      · simp only [keeping, asking, h.sound.restApi_eq, h.sound.restApis.seek_fst]
      · simp only [keeping, asking, h.sound.restApi_eq]
        exact h.withClient (.str "apigateway")
  | table name =>
      refine ⟨?_, h.environment, ?_, h.sound.table kept.environment name⟩
      · simp only [keeping, asking, h.sound.table_eq, h.sound.tables.seek_fst]
      · simp only [keeping, asking, h.sound.table_eq]
        exact h.withClient (.str "dynamodb")
  | getClient service => exact h.getClient service
  | clearRestApis => exact ⟨rfl, h.environment, h.clients, h.sound.clearRestApis⟩
  | clearTables => exact ⟨rfl, h.environment, h.clients, h.sound.clearTables⟩
  | enter environment => exact ⟨rfl, rfl, h.clients, h.sound⟩

theorem Mirrors.run (h : Mirrors account kept plain) (steps : List Step) :
    (run (keeping account) kept steps).2 = (run (asking account) plain steps).2 ∧
      Mirrors account (run (keeping account) kept steps).1
        (run (asking account) plain steps).1 := by
  induction steps generalizing kept plain with
  | nil => exact ⟨rfl, h⟩
  | cons step rest ih =>
      obtain ⟨hanswer, hnext⟩ := h.step step
      obtain ⟨hanswers, hlast⟩ := ih hnext
      refine ⟨?_, hlast⟩
      simp only [Place.run, hanswer, hanswers]

theorem distinctClients_getClient {place : Place} (h : place.session.DistinctClients)
    (service : Json) : (place.getClient service).1.session.DistinctClients := by
  unfold Place.getClient LookupSession.getClient
  cases checkKey service with
  | error fault => exact h
  | ok _ => exact h.withClient place.environment service

theorem distinctClients_asking {place : Place} (h : place.session.DistinctClients) (step : Step) :
    (asking account place step).1.session.DistinctClients := by
  cases step with
  | restApi name | table name => exact h.withClient place.environment _
  | getClient service => exact distinctClients_getClient h service
  | clearRestApis | clearTables | enter environment => exact h

theorem distinctClients_run {place : Place} (h : place.session.DistinctClients)
    (steps : List Step) : (run (asking account) place steps).1.session.DistinctClients := by
  induction steps generalizing place with
  | nil => exact h
  | cons step rest ih => exact ih (distinctClients_asking h step)

/-- Kept answers do not show: from the start on, every step answers as in a session that keeps none
and asks the account at each lookup. Both make the same clients in the same order and regions, and
no service gets two of them. -/
theorem run_keeping_eq_asking (account : Account) (environment : Environment)
    (steps : List Step) :
    (run (keeping account) ⟨environment, {}⟩ steps).2 =
        (run (asking account) ⟨environment, {}⟩ steps).2 ∧
      (run (keeping account) ⟨environment, {}⟩ steps).1.session.clients =
        (run (asking account) ⟨environment, {}⟩ steps).1.session.clients ∧
      (run (keeping account) ⟨environment, {}⟩ steps).1.session.DistinctClients := by
  have hstart : Mirrors account ⟨environment, {}⟩ ⟨environment, {}⟩ := ⟨rfl, rfl, .empty account⟩
  obtain ⟨hanswers, hlast⟩ := hstart.run steps
  have hdistinct : (run (asking account) ⟨environment, {}⟩ steps).1.session.DistinctClients := by
    apply distinctClients_run
    exact List.Pairwise.nil
  refine ⟨hanswers, hlast.clients, ?_⟩
  unfold DistinctClients
  rw [hlast.clients]
  exact hdistinct

end Place

end TableGateway.LookupSession
