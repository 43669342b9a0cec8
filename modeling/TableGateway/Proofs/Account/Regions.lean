import TableGateway.Application
import TableGateway.Proofs.Account.Session

/-! # Regions of clients

A client is made in the region that the environment of that moment names for clients. This is the
region that stacks are deployed to, but for one case: an environment that leaves the region to the
default variable and sets that to the empty text. -/

namespace TableGateway

/-- Whether an environment leaves the region to the default variable and sets that to the empty
text. -/
def Environment.BlanksRegion (environment : Environment) : Prop :=
  environment.given? "AWS_REGION" = none ∧
    Entries.get? environment "CDK_DEFAULT_REGION" = some ""

namespace LookupSession

variable {environment : Environment} {session next : LookupSession}

/-! ## One client -/

/-- A client is made in the region that is deployed to, unless the environment blanks it. -/
theorem clientRegion_eq_region_iff :
    clientRegion environment = Settings.region environment ↔ ¬ environment.BlanksRegion := by
  unfold clientRegion Settings.region Environment.BlanksRegion
  cases ha : environment.given? "AWS_REGION" with
  | some region => simp
  | none =>
      simp only [Option.none_or, true_and, Environment.given?]
      cases hd : Entries.get? environment "CDK_DEFAULT_REGION" with
      | none => simp
      | some region =>
          by_cases he : region = ""
          · have hdefault : ("" : Text) ≠ Settings.defaultRegion := by decide
            simpa [he, Option.filter] using hdefault
          · have hne : (region != ("" : Text)) = true := by simpa using he
            simp [Option.filter, hne, he]

/-- A session has the clients of another one, and at most one more, which was made in the region of
an environment. -/
inductive Extends (environment : Environment) (session next : LookupSession) : Prop where
  | same (h : next.clients = session.clients)
  | client (service : Json)
      (h : next.clients = session.clients ++ [(service, clientRegion environment)])

theorem Extends.of_clients {other : LookupSession} (h : Extends environment session next)
    (he : other.clients = next.clients) : Extends environment session other := by
  cases h with
  | same h => exact .same (he.trans h)
  | client service h => exact .client service (he.trans h)

theorem extends_withClient (session : LookupSession) (environment : Environment)
    (service : Json) : Extends environment session (session.withClient environment service) := by
  by_cases h : session.HasClient service
  · exact .same (by rw [withClient_of_hasClient h])
  · exact .client service (clients_withClient_of_not_hasClient h environment)

theorem extends_restApi (session : LookupSession) (environment : Environment)
    (account : Account) (name : Json) :
    Extends environment session (session.restApi environment account name).1 := by
  unfold LookupSession.restApi
  split
  · exact .same rfl
  · split
    · exact .same rfl
    · have hclient := extends_withClient session environment (.str "apigateway")
      dsimp only
      split
      · exact hclient.of_clients rfl
      · exact hclient

theorem extends_table (session : LookupSession) (environment : Environment)
    (account : Account) (name : Json) :
    Extends environment session (session.table environment account name).1 := by
  unfold LookupSession.table
  split
  · exact .same rfl
  · split
    · exact .same rfl
    · have hclient := extends_withClient session environment (.str "dynamodb")
      dsimp only
      split
      · exact hclient.of_clients rfl
      · exact hclient

/-! ## Runs -/

namespace Place

theorem extends_getClient (place : Place) (service : Json) :
    Extends place.environment place.session (place.getClient service).1.session := by
  unfold Place.getClient LookupSession.getClient
  cases checkKey service with
  | error fault => exact .same rfl
  | ok _ => exact extends_withClient place.session place.environment service

/-- Every step makes at most one client, in the region of the moment. -/
theorem extends_keeping (account : Account) (place : Place) (step : Step) :
    Extends place.environment place.session (keeping account place step).1.session := by
  cases step with
  | restApi name => exact extends_restApi place.session place.environment account (.str name)
  | table name => exact extends_table place.session place.environment account (.str name)
  | getClient service => exact extends_getClient place service
  | clearRestApis | clearTables | enter environment => exact .same rfl

/-- A client that was made, with the environment of that moment. -/
structure Made where
  environment : Environment
  service : Json
  region : Text

/-- Goes through steps, each with the account as it is by then, and gathers the clients that are
made. -/
def making (place : Place) : List (Account × Step) → Place × List Made
  | [] => (place, [])
  | (account, step) :: rest =>
      let next := (keeping account place step).1
      let fresh := next.session.clients.drop place.session.clients.length
      let (last, made) := making next rest
      (last, fresh.map (fun client => ⟨place.environment, client.1, client.2⟩) ++ made)

/-- No client is left out. -/
theorem clients_making (place : Place) (steps : List (Account × Step)) :
    (making place steps).1.session.clients =
      place.session.clients ++
        (making place steps).2.map fun made => (made.service, made.region) := by
  induction steps generalizing place with
  | nil => simp [making]
  | cons step rest ih =>
      obtain ⟨account, step⟩ := step
      rw [making]
      dsimp only
      rw [ih]
      cases extends_keeping account place step with
      | same h => simp [h]
      | client service h => simp [h]

theorem region_of_mem_making {place : Place} {steps : List (Account × Step)} {made : Made}
    (h : made ∈ (making place steps).2) : made.region = clientRegion made.environment := by
  induction steps generalizing place with
  | nil => cases h
  | cons step rest ih =>
      obtain ⟨account, step⟩ := step
      rw [making, List.mem_append] at h
      rcases h with h | h
      · obtain ⟨client, hc, rfl⟩ := List.mem_map.mp h
        cases extends_keeping account place step with
        | same he => simp [he] at hc
        | client service he =>
            rw [he, List.drop_left] at hc
            obtain rfl := List.mem_singleton.mp hc
            rfl
      · exact ih h

/-- The clients of a run are in the region that is deployed to at their moment exactly when no
environment blanks it. -/
theorem region_eq_iff (place : Place) (steps : List (Account × Step)) :
    (∀ made ∈ (making place steps).2, made.region = Settings.region made.environment) ↔
      ∀ made ∈ (making place steps).2, ¬ made.environment.BlanksRegion := by
  apply forall₂_congr
  intro made hm
  rw [region_of_mem_making hm]
  exact clientRegion_eq_region_iff

end Place

end LookupSession

/-! ## The program -/

namespace Application

variable {input : Input} {α β : Type}

/-- Whether all clients were made in the region that clients get in the environment of a run. -/
def InRegion (input : Input) (progress : Progress) : Prop :=
  ∀ client ∈ progress.lookups.clients, client.2 = LookupSession.clientRegion input.environment

/-- Whether a step makes clients in no other region, and returns nothing but such results. -/
def Ensures (input : Input) (result : α → Prop) (step : Step α) : Prop :=
  ∀ progress, InRegion input progress →
    InRegion input (step.run.run progress).2 ∧
      ∀ value, (step.run.run progress).1 = .ok value → result value

theorem ensures_pure {result : α → Prop} {value : α} (h : result value) :
    Ensures input result (pure value) := by
  intro progress hp
  refine ⟨hp, ?_⟩
  intro other he
  exact (Except.ok.inj he) ▸ h

theorem ensures_throw (result : α → Prop) (cause : RunError) :
    Ensures input result (throw cause) :=
  fun _ hp => ⟨hp, nofun⟩

theorem Ensures.bind {P : α → Prop} {Q : β → Prop} {step : Step α} {next : α → Step β}
    (h : Ensures input P step) (hnext : ∀ value, P value → Ensures input Q (next value)) :
    Ensures input Q (step >>= next) := by
  intro progress hp
  obtain ⟨hafter, hvalue⟩ := h progress hp
  cases hs : step.run.run progress with
  | mk outcome after =>
      rw [hs] at hafter hvalue
      cases outcome with
      | error cause =>
          have hbind : (step >>= next).run.run progress = (.error cause, after) := by
            rw [ExceptT.run_bind, StateT.run_bind, hs]
            rfl
          rw [hbind]
          exact ⟨hafter, nofun⟩
      | ok value =>
          have hbind : (step >>= next).run.run progress = (next value).run.run after := by
            rw [ExceptT.run_bind, StateT.run_bind, hs]
            rfl
          rw [hbind]
          exact hnext value (hvalue value rfl) after hafter

theorem InRegion.of_extends {progress : Progress} {lookups : LookupSession}
    (h : InRegion input progress)
    (he : LookupSession.Extends input.environment progress.lookups lookups) :
    InRegion input { progress with lookups } := by
  intro client hc
  cases he with
  | same he =>
      rw [he] at hc
      exact h client hc
  | client service he =>
      rw [he, List.mem_append] at hc
      rcases hc with hc | hc
      · exact h client hc
      · obtain rfl := List.mem_singleton.mp hc
        rfl

theorem ensures_get (input : Input) : Ensures input (InRegion input) get := by
  intro progress hp
  refine ⟨hp, ?_⟩
  intro value he
  exact (Except.ok.inj he) ▸ hp

theorem ensures_set {progress : Progress} (h : InRegion input progress) :
    Ensures input (fun _ => True) (set progress) :=
  fun _ _ => ⟨h, fun _ _ => trivial⟩

theorem ensures_findTable (input : Input) (name : Text) :
    Ensures input (fun _ => True) (findTable input name) := by
  apply (ensures_get input).bind
  intro progress hp
  have hnext := hp.of_extends
    (LookupSession.extends_table progress.lookups input.environment input.account (.str name))
  apply (ensures_set hnext).bind
  intro _ _
  split
  · exact ensures_pure trivial
  · exact ensures_throw _ _

theorem ensures_findRestApi (input : Input) (name : Text) :
    Ensures input (fun _ => True) (findRestApi input name) := by
  apply (ensures_get input).bind
  intro progress hp
  have hnext := hp.of_extends
    (LookupSession.extends_restApi progress.lookups input.environment input.account (.str name))
  apply (ensures_set hnext).bind
  intro _ _
  split
  · exact ensures_pure trivial
  · exact ensures_throw _ _

theorem ensures_log (input : Input) (logger : Log.Logger) (records : List Log.Record) :
    Ensures input (fun _ => True) (log logger records) :=
  fun _ hp => ⟨hp, fun _ _ => trivial⟩

theorem ensures_openLogger (input : Input) (name : Text) :
    Ensures input (fun _ => True) (openLogger input name) := by
  apply (ensures_get input).bind
  intro progress hp
  have hnext : InRegion input { progress with
      log := (progress.log.openLogger (Entries.get? input.environment "LOG_LEVEL") (.str name)
        .null).1 } := hp
  apply (ensures_set hnext).bind
  intro _ _
  split
  · exact ensures_pure trivial
  · exact ensures_throw _ _

theorem ensures_checkTable (input : Input) (logger : Log.Logger) (name : Text) :
    Ensures input (fun _ => True) (checkTable input logger name) := by
  apply (ensures_findTable input name).bind
  intro found _
  split
  · exact ensures_log input logger _
  · exact ensures_pure trivial

theorem ensures_forM {act : α → Step Unit} (h : ∀ item, Ensures input (fun _ => True) (act item))
    (items : List α) : Ensures input (fun _ => True) (items.forM act) := by
  induction items with
  | nil => exact ensures_pure trivial
  | cons item rest ih => exact (h item).bind fun _ _ => ih

theorem ensures_existingApi (input : Input) (logger : Log.Logger) :
    Ensures input (fun _ => True) (existingApi input logger) := by
  unfold existingApi
  split
  · exact ensures_pure trivial
  · apply (ensures_findRestApi input _).bind
    intro found _
    split
    · exact ensures_pure trivial
    · exact (ensures_log input logger _).bind fun _ _ => ensures_pure trivial

theorem ensures_events (input : Input) (logger : Log.Logger) :
    Ensures input (fun _ => True) (events input logger) := by
  have hpath : Ensures input (fun _ => True) (configPath input) := by
    unfold configPath
    split
    · exact ensures_pure trivial
    · exact ensures_throw _ _
  apply hpath.bind
  intro path _
  split
  · exact ensures_throw _ _
  · split
    · exact ensures_throw _ _
    · exact (ensures_log input logger _).bind fun _ _ => ensures_pure trivial

theorem ensures_buildStack (input : Input) (stackInput : StackInput) :
    Ensures input (fun _ => True) (buildStack input stackInput) := by
  apply (ensures_openLogger input "stack").bind
  intro logger _
  apply (ensures_log input logger _).bind
  intro _ _
  split
  · exact ensures_pure trivial
  · exact ensures_throw _ _

/-- The program makes clients in one region, and ends with the stack in the region that is deployed
to. -/
theorem ensures_program (input : Input) :
    Ensures input (fun output => output.region = Settings.region input.environment)
      (program input) := by
  apply (ensures_openLogger input "app").bind
  intro logger _
  apply (ensures_events input logger).bind
  intro events _
  apply (ensures_forM (ensures_checkTable input logger) (tableNames events)).bind
  intro _ _
  apply (ensures_existingApi input logger).bind
  intro existing _
  apply (ensures_buildStack input _).bind
  intro stack _
  exact ensures_pure rfl

/-- A run of the program makes its clients in the region of the stack exactly when it makes none or
the environment does not blank the region. -/
theorem regions_run (input : Input) :
    (∀ output, (run input).1 = .ok output →
        output.region = Settings.region input.environment) ∧
      ((∀ client ∈ (run input).2.lookups.clients,
          client.2 = Settings.region input.environment) ↔
        (run input).2.lookups.clients = [] ∨ ¬ input.environment.BlanksRegion) := by
  have hstart : InRegion input { log := { clock := input.clock } } :=
    fun client hc => absurd hc List.not_mem_nil
  obtain ⟨hclients, houtput⟩ := ensures_program input _ hstart
  refine ⟨houtput, ?_⟩
  rw [← LookupSession.clientRegion_eq_region_iff]
  constructor
  · intro h
    cases hc : (run input).2.lookups.clients with
    | nil => exact Or.inl rfl
    | cons client rest =>
        have hin : client ∈ (run input).2.lookups.clients := by simp [hc]
        exact Or.inr ((hclients client hin).symm.trans (h client hin))
  · intro h client hc
    rcases h with hnone | he
    · rw [hnone] at hc
      cases hc
    · exact (hclients client hc).trans he

end Application

namespace LookupSession.Place

/-- In which region clients are made. Lookups, calls for clients and changes of the environment may
follow one another in any order, on an account that may change as well: the clients that are made on
the way are those of the session in the end, and all of them are in the region that is deployed to,
by the environment of their moment, exactly when none of these environments blanks it. The program
makes its clients in the region of its stack under the same condition. -/
theorem client_regions_iff (environment : Environment) (steps : List (Account × Step))
    (input : Application.Input) :
    ((making ⟨environment, {}⟩ steps).1.session.clients =
          (making ⟨environment, {}⟩ steps).2.map (fun made => (made.service, made.region)) ∧
        ((∀ made ∈ (making ⟨environment, {}⟩ steps).2,
            made.region = Settings.region made.environment) ↔
          ∀ made ∈ (making ⟨environment, {}⟩ steps).2, ¬ made.environment.BlanksRegion)) ∧
      (∀ output, (Application.run input).1 = .ok output →
          output.region = Settings.region input.environment) ∧
        ((∀ client ∈ (Application.run input).2.lookups.clients,
            client.2 = Settings.region input.environment) ↔
          (Application.run input).2.lookups.clients = [] ∨
            ¬ input.environment.BlanksRegion) := by
  refine ⟨⟨?_, region_eq_iff _ steps⟩, Application.regions_run input⟩
  have hclients := clients_making ⟨environment, {}⟩ steps
  simpa using hclients

/-- An environment that sets the default region to the empty text. -/
def blankDefault : Environment := [("CDK_DEFAULT_REGION", "")]

/-- A client that is made there is not in the region that is deployed to. -/
theorem not_deployed_blankDefault :
    ∃ made, (making ⟨blankDefault, {}⟩ [({}, .getClient (.str "apigateway"))]).2 = [made] ∧
      made.environment = blankDefault ∧ made.service = .str "apigateway" ∧ made.region = "" ∧
      Settings.region made.environment = "us-east-1" := by
  refine ⟨⟨blankDefault, .str "apigateway", ""⟩, ?_, rfl, rfl, rfl, ?_⟩
  · rfl
  · decide

end LookupSession.Place

end TableGateway
