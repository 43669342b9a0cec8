import TableGateway.Proofs.Compile.Serving
import TableGateway.Proofs.Method.Making
import TableGateway.Proofs.Resource

/-! # What the role grants

The role of the compiled events grants their methods what they call, and no more. Tables are
compared loosely, so of tables that are the same the first one stands for all. -/

namespace TableGateway

/-! ## First values -/

namespace Json

/-- The values that are not the same as an earlier one, in their order. -/
def firsts (values : List Json) : List Json :=
  (values.zipIdx.filter fun (numbered : Json × Nat) =>
    decide (∀ earlier ∈ values.take numbered.2, ¬ Same earlier numbered.1)).map Prod.fst

@[simp] theorem firsts_nil : firsts [] = [] := rfl

/-- One more value is a first one unless it is the same as one before. -/
theorem firsts_concat (values : List Json) (value : Json) :
    firsts (values ++ [value]) =
      firsts values ++ if ∃ earlier ∈ values, Same earlier value then [] else [value] := by
  have hfront : (values.zipIdx.filter fun (numbered : Json × Nat) =>
      decide (∀ earlier ∈ (values ++ [value]).take numbered.2, ¬ Same earlier numbered.1)) =
      values.zipIdx.filter fun (numbered : Json × Nat) =>
        decide (∀ earlier ∈ values.take numbered.2, ¬ Same earlier numbered.1) := by
    apply List.filter_congr
    rintro ⟨other, position⟩ hm
    have hlt : position < values.length := by
      have h := List.mem_zipIdx hm
      omega
    rw [List.take_append_of_le_length hlt.le]
  unfold firsts
  rw [List.zipIdx_append, List.filter_append, List.map_append, hfront]
  congr 1
  by_cases h : ∃ earlier ∈ values, Same earlier value
  · rw [if_pos h, List.zipIdx_singleton, List.filter_cons_of_neg (by simpa using h)]
    rfl
  · rw [if_neg h, List.zipIdx_singleton, List.filter_cons_of_pos (by simpa using h)]
    rfl

theorem firsts_map {f : Json → Json} (hf : ∀ a b, Same (f a) (f b) ↔ Same a b)
    (values : List Json) : firsts (values.map f) = (firsts values).map f := by
  induction values using List.reverseRecOn with
  | nil => rfl
  | append_singleton values value ih =>
      rw [List.map_append, List.map_singleton, firsts_concat, firsts_concat, ih, List.map_append]
      by_cases h : ∃ earlier ∈ values, Same earlier value
      · simp [h, hf]
      · simp [h, hf]

theorem mem_of_mem_firsts {values : List Json} {value : Json} (h : value ∈ firsts values) :
    value ∈ values := by
  induction values using List.reverseRecOn with
  | nil => simp at h
  | append_singleton values last ih =>
      rw [firsts_concat, List.mem_append] at h
      rcases h with h | h
      · exact List.mem_append_left _ (ih h)
      · split at h <;> simp_all

/-- Every value is the same as a first one. -/
theorem exists_mem_firsts {values : List Json} {value : Json} (h : value ∈ values) :
    ∃ first ∈ firsts values, Same first value := by
  induction values using List.reverseRecOn generalizing value with
  | nil => cases h
  | append_singleton values last ih =>
      have hkeep : ∀ first ∈ firsts values, first ∈ firsts (values ++ [last]) := by
        intro first hf
        rw [firsts_concat]
        exact List.mem_append_left _ hf
      rcases List.mem_append.mp h with h | h
      · obtain ⟨first, hf, hs⟩ := ih h
        exact ⟨first, hkeep first hf, hs⟩
      · obtain rfl := List.mem_singleton.mp h
        by_cases hsame : ∃ earlier ∈ values, Same earlier value
        · obtain ⟨earlier, he, hs⟩ := hsame
          obtain ⟨first, hf, hfirst⟩ := ih he
          exact ⟨first, hkeep first hf, hfirst.trans hs⟩
        · refine ⟨value, ?_, .refl value⟩
          rw [firsts_concat, if_neg hsame]
          exact List.mem_append_right _ (List.mem_singleton_self value)

/-- The items of a list; other values have none. -/
def items : Json → List Json
  | arr items => items
  | _ => []

end Json

namespace Role

theorem firstUses_concat (seen values : List Json) (value : Json) :
    firstUses seen (values ++ [value]) =
      firstUses seen values ++
        if ∃ earlier ∈ seen ++ values, Json.Same earlier value then [] else [value] := by
  induction values generalizing seen with
  | nil => simp [firstUses]
  | cons first rest ih =>
      by_cases h : seen.any (fun old => decide (Json.Same old first)) = true
      · -- The first value is passed over, but the one it is the same as stands for it.
        obtain ⟨old, ho, hs⟩ : ∃ old ∈ seen, Json.Same old first := by simpa using h
        have hcond : (∃ earlier ∈ seen ++ first :: rest, Json.Same earlier value) ↔
            ∃ earlier ∈ seen ++ rest, Json.Same earlier value := by
          constructor
          · rintro ⟨earlier, he, hv⟩
            rw [List.mem_append, List.mem_cons] at he
            rcases he with he | rfl | he
            · exact ⟨earlier, List.mem_append_left _ he, hv⟩
            · exact ⟨old, List.mem_append_left _ ho, hs.trans hv⟩
            · exact ⟨earlier, List.mem_append_right _ he, hv⟩
          · rintro ⟨earlier, he, hv⟩
            rw [List.mem_append] at he
            rcases he with he | he
            · exact ⟨earlier, List.mem_append_left _ he, hv⟩
            · exact ⟨earlier, by simp [he], hv⟩
        simp only [List.cons_append, firstUses, h, if_true, ih, hcond]
      · have hcond : (∃ earlier ∈ seen ++ first :: rest, Json.Same earlier value) ↔
            ∃ earlier ∈ (first :: seen) ++ rest, Json.Same earlier value := by
          simp only [List.mem_append, List.mem_cons]
          grind
        simp only [List.cons_append, firstUses, h, ih, hcond]
        rfl

theorem firstUses_eq_firsts (values : List Json) : firstUses [] values = Json.firsts values := by
  induction values using List.reverseRecOn with
  | nil => rfl
  | append_singleton values value ih =>
      rw [firstUses_concat, Json.firsts_concat, ih, List.nil_append]

theorem same_tableArn_iff (a b : Json) : Json.Same (tableArn a) (tableArn b) ↔ Json.Same a b := by
  simp [Json.Same, tableArn, Intrinsic.sub, Json.normal, Json.normalItems, Json.normalFields,
    Json.insertField]

/-! ## Grants of events -/

section Granted

variable {events : List Event}

theorem mem_granted_iff {action : Action} {table : Json} :
    (action, table) ∈ granted events ↔
      ∃ event ∈ events, event.action = .known action ∧ event.tableName = table := by
  unfold granted
  rw [List.mem_filterMap]
  constructor
  · rintro ⟨event, he, hg⟩
    cases ha : event.action with
    | known found =>
        simp only [ha, Option.some.injEq, Prod.mk.injEq] at hg
        exact ⟨event, he, by rw [ha, hg.1], hg.2⟩
    | other value => simp [ha] at hg
  · rintro ⟨event, he, ha, rfl⟩
    exact ⟨event, he, by simp [ha]⟩

theorem any_granted_iff {action : Action} :
    (granted events).any (·.1 == action) = true ↔
      ∃ event ∈ events, event.action = .known action := by
  simp only [List.any_eq_true, beq_iff_eq, Prod.exists]
  constructor
  · rintro ⟨found, table, hm, rfl⟩
    obtain ⟨event, he, ha, -⟩ := mem_granted_iff.mp hm
    exact ⟨event, he, ha⟩
  · rintro ⟨event, he, ha⟩
    exact ⟨action, event.tableName, mem_granted_iff.mpr ⟨event, he, ha, rfl⟩, rfl⟩

theorem tables_granted (h : ∀ event ∈ events, ∃ action, event.action = .known action) :
    (granted events).map Prod.snd = events.map (·.tableName) := by
  induction events with
  | nil => rfl
  | cons event rest ih =>
      obtain ⟨action, ha⟩ := h event (by simp)
      have hrest := ih fun other ho => h other (List.mem_cons_of_mem _ ho)
      have hcons : granted (event :: rest) = (action, event.tableName) :: granted rest := by
        simp [granted, ha]
      rw [hcons, List.map_cons, List.map_cons, hrest]

theorem granted_eq_nil_iff (h : ∀ event ∈ events, ∃ action, event.action = .known action) :
    granted events = [] ↔ events = [] := by
  rw [← List.map_eq_nil_iff (f := Prod.snd), tables_granted h, List.map_eq_nil_iff]

end Granted

/-! ## What a role says -/

/-- The statements of all policies of a role. -/
def statements (role : Json) : List Json :=
  ((role.field "Properties").field "Policies").items.flatMap fun policy =>
    ((policy.field "PolicyDocument").field "Statement").items

/-- A role allows these actions on these tables, and states nothing else. -/
def Allows (role : Json) (actions : List Text) (tables : List Json) : Prop :=
  statements role =
    [.obj [("Effect", .str "Allow"), ("Action", .arr (actions.map .str)),
      ("Resource", .arr tables)]]

theorem allows_toJson (role : Role) :
    Allows role.toJson (role.actions.map actionName) (role.tables.map tableArn) := by
  have hs : statements role.toJson =
      [.obj [("Effect", .str "Allow"),
        ("Action", .arr (role.actions.map fun action => .str (actionName action))),
        ("Resource", .arr (role.tables.map tableArn))]] := rfl
  rw [Allows, hs, List.map_map]
  rfl

theorem ascending_actionName : (ascending.map actionName).Pairwise (· < ·) := by decide

theorem mem_ascending (action : Action) : action ∈ ascending := by cases action <;> decide

theorem ofEvents?_eq_none_iff {events : List Event} :
    ofEvents? events = none ↔ granted events = [] := by
  simp [ofEvents?]

theorem eq_of_ofEvents? {events : List Event} {role : Role} (h : ofEvents? events = some role) :
    role = ⟨ascending.filter fun action => (granted events).any (·.1 == action),
      firstUses [] ((granted events).map Prod.snd)⟩ := by
  simp only [ofEvents?, Option.ite_none_left_eq_some, Option.some.injEq] at h
  exact h.2.symm

end Role

/-! ## The role of a result -/

namespace Compile

/-- The integration of a compiled method, as it is written in the map. -/
def IntegrationOf (result : Result) (compiled : Compiled) (integration : Json) : Prop :=
  ∃ resource, Entries.get? result.resources compiled.logicalId = some resource ∧
    resource.property "Integration" = integration

/-- A compiled method calls the action of a name: this is the one that its address is filled with.
-/
def Calls (result : Result) (compiled : Compiled) (name : Text) : Prop :=
  ∃ integration, IntegrationOf result compiled integration ∧
    integration.field "Uri" = Intrinsic.sub Method.actionUri [("action", .str name)]

/-- Actions and tables that are what the compiled methods use: each action once, in ascending order,
and the tables in the order of their first use. -/
structure Used (result : Result) (actions : List Text) (tables : List Json) : Prop where
  ascending : actions.Pairwise (· < ·)
  actions_iff : ∀ action, action ∈ actions ↔
    ∃ name, action = "dynamodb:" ++ name ∧ ∃ compiled ∈ result.compiled, Calls result compiled name
  tables_eq : tables = Json.firsts (result.events.map fun event => Role.tableArn event.tableName)
  granted : ∀ event ∈ result.events, ∃ arn ∈ tables, Json.Same arn (Role.tableArn event.tableName)
  used : ∀ arn ∈ tables, ∃ event ∈ result.events, arn = Role.tableArn event.tableName

/-- The entries for the role of a result: none without methods, and otherwise the one that methods
refer to for their credentials, which allows what they use. -/
structure Granted (result : Result) (roles : ResourceMap) : Prop where
  absent_iff : roles = [] ↔ result.methodIds = []
  credentials : ∀ compiled ∈ result.compiled, ∃ integration,
    IntegrationOf result compiled integration ∧
      integration.field "Credentials" = Intrinsic.getAtt Method.roleLogicalId "Arn" ∧
      Method.roleLogicalId ∈ Entries.keys roles
  allows : ∀ entry ∈ roles, entry.1 = Method.roleLogicalId ∧
    ∃ actions tables, Role.Allows entry.2.toJson actions tables ∧ Used result actions tables

namespace Intact

variable {api : Api} {given : ResourceMap} {result : Result}

theorem exists_method (h : Intact api given result) {compiled : Compiled}
    (hc : compiled ∈ result.compiled) :
    ∃ method, Entries.get? result.resources compiled.logicalId = some (.method method) ∧
      MethodResource.MadeFrom api compiled.event method := by
  obtain ⟨-, method, hm, hg⟩ := h.methods compiled hc
  exact ⟨method, hg, MethodResource.madeFrom_of_ofEvent hm⟩

theorem exists_action (h : Intact api given result) :
    ∀ event ∈ result.events, ∃ action, event.action = .known action := by
  intro event he
  obtain ⟨compiled, hc, rfl⟩ := List.mem_map.mp he
  obtain ⟨method, -, hm⟩ := h.exists_method hc
  exact ⟨_, hm.action⟩

/-- A method calls the action of its event. -/
theorem calls_iff (h : Intact api given result) {compiled : Compiled}
    (hc : compiled ∈ result.compiled) {name : Text} :
    Calls result compiled name ↔
      ∃ action, compiled.event.action = .known action ∧ name = action.name := by
  obtain ⟨method, hg, hm⟩ := h.exists_method hc
  have huri : method.integration.toJson.field "Uri" =
      Intrinsic.sub Method.actionUri [("action", .str method.integration.action.name)] := rfl
  constructor
  · rintro ⟨integration, ⟨resource, hr, rfl⟩, hu⟩
    obtain rfl := Option.some.inj (hg.symm.trans hr)
    rw [MethodResource.property_integration, huri] at hu
    exact ⟨_, hm.action, by simpa [Intrinsic.sub] using hu.symm⟩
  · rintro ⟨action, ha, rfl⟩
    rw [hm.action] at ha
    obtain rfl := ActionChoice.known.inj ha
    exact ⟨_, ⟨_, hg, MethodResource.property_integration method⟩, huri⟩

theorem mem_actions_iff (h : Intact api given result) {role : Role}
    (hr : Role.ofEvents? result.events = some role) {action : Text} :
    action ∈ role.actions.map Role.actionName ↔
      ∃ name, action = "dynamodb:" ++ name ∧
        ∃ compiled ∈ result.compiled, Calls result compiled name := by
  obtain rfl := Role.eq_of_ofEvents? hr
  simp only [List.mem_map, List.mem_filter, Role.mem_ascending, true_and, Role.any_granted_iff]
  constructor
  · rintro ⟨known, ⟨event, he, ha⟩, rfl⟩
    obtain ⟨compiled, hc, rfl⟩ := List.mem_map.mp he
    exact ⟨known.name, rfl, compiled, hc, (h.calls_iff hc).mpr ⟨known, ha, rfl⟩⟩
  · rintro ⟨name, rfl, compiled, hc, hcalls⟩
    obtain ⟨known, ha, rfl⟩ := (h.calls_iff hc).mp hcalls
    exact ⟨known, ⟨compiled.event, List.mem_map_of_mem hc, ha⟩, rfl⟩

theorem tables_eq (h : Intact api given result) {role : Role}
    (hr : Role.ofEvents? result.events = some role) :
    role.tables.map Role.tableArn =
      Json.firsts (result.events.map fun event => Role.tableArn event.tableName) := by
  obtain rfl := Role.eq_of_ofEvents? hr
  have harns : (result.events.map fun event => Role.tableArn event.tableName) =
      (result.events.map (·.tableName)).map Role.tableArn := by rw [List.map_map]; rfl
  rw [harns, Json.firsts_map Role.same_tableArn_iff, Role.firstUses_eq_firsts,
    Role.tables_granted h.exists_action]

theorem used (h : Intact api given result) {role : Role}
    (hr : Role.ofEvents? result.events = some role) :
    Used result (role.actions.map Role.actionName) (role.tables.map Role.tableArn) where
  ascending := by
    obtain rfl := Role.eq_of_ofEvents? hr
    exact Role.ascending_actionName.sublist (List.filter_sublist.map _)
  actions_iff := fun _ => h.mem_actions_iff hr
  tables_eq := h.tables_eq hr
  granted := by
    intro event he
    rw [h.tables_eq hr]
    exact Json.exists_mem_firsts (List.mem_map_of_mem he)
  used := by
    intro arn ha
    rw [h.tables_eq hr] at ha
    obtain ⟨event, he, rfl⟩ := List.mem_map.mp (Json.mem_of_mem_firsts ha)
    exact ⟨event, he, rfl⟩

theorem ofRole_eq_nil_iff (h : Intact api given result) :
    ResourceMap.ofRole result.events = [] ↔ result.methodIds = [] := by
  have hrole : ResourceMap.ofRole result.events = [] ↔ result.events = [] := by
    rw [← Role.granted_eq_nil_iff h.exists_action, ← Role.ofEvents?_eq_none_iff]
    simp [ResourceMap.ofRole]
  rw [hrole, Result.events, Result.methodIds, List.map_eq_nil_iff, List.map_eq_nil_iff]

/-- With a method there is a role, which stands under the ID that methods refer to. -/
theorem roleLogicalId_mem_keys (h : Intact api given result) {compiled : Compiled}
    (hc : compiled ∈ result.compiled) :
    Method.roleLogicalId ∈ Entries.keys (ResourceMap.ofRole result.events) := by
  have hne : ResourceMap.ofRole result.events ≠ [] := by
    rw [Ne, h.ofRole_eq_nil_iff]
    exact List.ne_nil_of_mem (List.mem_map_of_mem hc)
  obtain ⟨entry, he⟩ := List.exists_mem_of_ne_nil _ hne
  obtain ⟨role, -, rfl⟩ := List.mem_map.mp he
  exact Entries.mem_keys_of_mem he

theorem granted (h : Intact api given result) : Granted result (.ofRole result.events) where
  absent_iff := h.ofRole_eq_nil_iff
  credentials := by
    intro compiled hc
    obtain ⟨method, hg, -⟩ := h.exists_method hc
    exact ⟨_, ⟨_, hg, MethodResource.property_integration method⟩, rfl,
      h.roleLogicalId_mem_keys hc⟩
  allows := by
    intro entry he
    obtain ⟨role, hr, rfl⟩ := List.mem_map.mp he
    exact ⟨rfl, _, _, Role.allows_toJson role, h.used (Option.mem_toList.mp hr)⟩

end Intact

/-- The role made from the compiled events is there exactly when there is a method, and it allows
what the methods use: their actions, each once and in ascending order, and the tables of their
events in first-use order. What is skipped is granted nothing. -/
theorem compile_grants (api : Api) {given : ResourceMap} (hgiven : given.Objects)
    (events : List Event) :
    (∃ result, (compile api false events given).outcome = .ok result) ∧
      ∀ strict result, (compile api strict events given).outcome = .ok result →
        Granted result (.ofRole result.events) :=
  ⟨⟨_, compile_lenient api events given⟩, fun _ _ h => (Intact.compile hgiven h).granted⟩

/-- An event that writes orders. -/
def writeOrder : Event where
  method := "put"
  path := "orders"
  action := .known .putItem
  tableName := .str "Orders"

/-- Reading users and writing orders, around an event whose action has no name and one that collides
with the first. -/
def readAndWrite : List Event :=
  [readUser, { readUser with path := "logs", action := .other .null, tableName := .str "Logs" },
    { readUser with tableName := .str "Members" }, writeOrder, { readUser with path := "people" }]

/-- Of five events three are compiled, and the role grants their two actions on their two tables. -/
theorem compile_grants_readAndWrite :
    ∃ result, (compile Api.own false readAndWrite (.ownApi (.str "users-api"))).outcome =
        .ok result ∧ result.events.length = 3 ∧ Granted result (.ofRole result.events) ∧
      ∃ role, ResourceMap.ofRole result.events = [(Method.roleLogicalId, .role role)] ∧
        Role.Allows role.toJson ["dynamodb:GetItem", "dynamodb:PutItem"]
          [Role.tableArn (.str "Users"), Role.tableArn (.str "Orders")] := by
  have h := compile_lenient Api.own readAndWrite (.ownApi (.str "users-api"))
  have hevents : (settleAll Api.own { resources := .ownApi (.str "users-api") } 0
      readAndWrite).events = [readUser, writeOrder, { readUser with path := "people" }] := by
    decide +kernel
  refine ⟨_, h, by rw [hevents]; rfl,
    (compile_grants Api.own (objects_ownApi _) readAndWrite).2 false _ h,
    ⟨[.getItem, .putItem], [.str "Users", .str "Orders"]⟩, ?_, rfl⟩
  rw [hevents]
  decide +kernel

end Compile

end TableGateway
