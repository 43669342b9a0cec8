import TableGateway.Proofs.Account.Lookup
import TableGateway.Proofs.Compile.Order
import TableGateway.Proofs.Stack

/-! # Stacks on an imported API

A stack on an API that a lookup has found refers to the IDs of that API, and not to the one of a
stack of its own, which it does not have. This needs both IDs: in the place of one that is missing
comes the reference to the own API. -/

namespace TableGateway

/-- A stack on an API that was found. -/
def StackInput.Imports (input : StackInput) (found : FoundApi) : Prop :=
  input.existing =
    .obj [("rest_api_id", found.restApiId), ("root_resource_id", found.rootResourceId)]

/-- The stack of some events on an API that was found, for the development stage. -/
def StackInput.importing (found : FoundApi) (events : List Event) : StackInput where
  events := events
  apiName := .str "users-api"
  existing := .obj [("rest_api_id", found.restApiId), ("root_resource_id", found.rootResourceId)]

/-- The API that a stack on an API that was found attaches to. -/
def FoundApi.toApi (found : FoundApi) : Api := .ofIds found.restApiId found.rootResourceId

namespace Stack

/-- A place in the tree of paths below an API that was found: its root, or a path resource. -/
def PlaceBelow (found : FoundApi) (value : Json) : Prop :=
  value = found.rootResourceId ∨ ∃ path, value = Intrinsic.ref (Route.resourceLogicalId path)

/-- The stack does not have an API of its own, and it does not refer to one: what it fills in are
the IDs of the API that was found and references to path resources and the role, and a reference to
an own API comes from a value that was passed in. -/
structure Detached (found : FoundApi) (stack : Stack) : Prop where
  absent : restApiLogicalId ∉ Entries.keys stack.resources
  path : ∀ id entry, Entries.get? stack.resources id = some entry →
    entry.type = .str "AWS::ApiGateway::Resource" →
    entry.property "RestApiId" = found.restApiId ∧
      PlaceBelow found (entry.property "ParentId")
  method : ∀ id entry, Entries.get? stack.resources id = some entry →
    entry.type = .str "AWS::ApiGateway::Method" →
    entry.property "RestApiId" = found.restApiId ∧
      PlaceBelow found (entry.property "ResourceId") ∧
      (entry.property "Integration").field "Credentials" =
        Intrinsic.getAtt Method.roleLogicalId "Arn"
  deployment : ∀ id entry, Entries.get? stack.resources id = some entry →
    entry.type = .str "AWS::ApiGateway::Deployment" →
    entry.property "RestApiId" = found.restApiId ∧
      entry.toJson.field "DependsOn" = .arr (stack.result.methodIds.map .str)
  every : ∀ id entry, Entries.get? stack.resources id = some entry →
    entry.toJson.Mentions restApiLogicalId →
    found.restApiId.Mentions restApiLogicalId ∨ found.rootResourceId.Mentions restApiLogicalId ∨
      ∃ event ∈ stack.result.events, event.Supplies restApiLogicalId

end Stack

/-- From nothing no REST API is compiled. -/
theorem Compile.Intact.restApi_not_mem_keys {api : Api} {result : Result}
    (h : Intact api [] result) : restApiLogicalId ∉ Entries.keys result.resources := by
  intro hk
  obtain ⟨entry, hg⟩ := Entries.exists_get?_of_mem_keys hk
  rcases h.origin _ _ hg with hv | hid | ⟨event, -, resource, hm, -⟩
  · cases hv
  · rw [h.methodIds_eq] at hid
    obtain ⟨event, -, he⟩ := List.mem_map.mp hid
    exact Route.methodLogicalId_ne_restApi _ _ he
  · exact absurd (Route.idFamily_of_mem_keys (Entries.mem_keys_of_mem hm)) (by decide)

/-! ## With both IDs -/

/-- Both IDs of an API were found. -/
structure FoundApi.Complete (found : FoundApi) : Prop where
  restApi : found.restApiId ≠ .null
  root : found.rootResourceId ≠ .null

namespace FoundApi.Complete

variable {found : FoundApi}

theorem restApiId_toApi (h : found.Complete) : found.toApi.restApiId = found.restApiId :=
  if_neg h.restApi

/-- The root of an API with both IDs is that of the API, and all other places are path resources. -/
theorem placeBelow_partsRef (h : found.Complete) {path : Text} {front : List Text}
    (hf : front <+: Text.parts path) :
    Stack.PlaceBelow found (Route.partsRef found.toApi front) := by
  by_cases hne : front = []
  · subst hne
    exact Or.inl (if_neg h.root)
  · obtain ⟨rest, hrest⟩ := hf
    have hparts : Text.AreParts front := (hrest ▸ Text.areParts_parts path : Text.AreParts _).left
    refine Or.inr ⟨Route.ofParts front, ?_⟩
    rw [Route.partsRef_of_ne_nil _ hne, Route.resourceLogicalId_ofParts hparts]

end FoundApi.Complete

namespace Stack

variable {input : StackInput} {found : FoundApi} {result : Compile.Result} {stageName : Text}

/-- Without a root in the API that was found, the root of an own API is no place below it. -/
theorem not_placeBelow_own (h : found.rootResourceId = .null) :
    ¬ PlaceBelow found Api.own.rootResourceId := by
  rintro (hp | ⟨path, hp⟩)
  · rw [h] at hp
    cases hp
  · exact Api.Plain.own.ref_ne_root _ hp.symm

/-- A place refers to an own API only as the root of the API that was found. -/
theorem PlaceBelow.mentions_root {value : Json} (hp : PlaceBelow found value)
    (hm : value.Mentions restApiLogicalId) : found.rootResourceId.Mentions restApiLogicalId := by
  rcases hp with rfl | ⟨path, rfl⟩
  · exact hm
  · exact absurd (Intrinsic.mentions_ref_iff.mp hm).symm (Route.resourceLogicalId_ne_restApi path)

/-- A reference to an own API that is found in an entry was passed in. -/
theorem mentions_or_supplies_of_refers (hfound : found.Complete)
    (h : Refers found.toApi [] result restApiLogicalId) :
    found.restApiId.Mentions restApiLogicalId ∨ found.rootResourceId.Mentions restApiLogicalId ∨
      ∃ event ∈ result.events, event.Supplies restApiLogicalId := by
  cases h with
  | name hg hm => cases hg
  | api hm => exact Or.inl (hfound.restApiId_toApi ▸ hm)
  | place he hf hm => exact Or.inr (Or.inl ((hfound.placeBelow_partsRef hf).mentions_root hm))
  | role hc hid => exact absurd hid (by decide)
  | event he hs => exact Or.inr (Or.inr ⟨_, he, hs⟩)

theorem restApi_not_mem_keys (h : Compile.Intact found.toApi [] result) :
    restApiLogicalId ∉ Entries.keys (assemble found.toApi (.str stageName) result) := by
  intro hk
  rw [h.assemble_eq .empty, Entries.keys_append, Entries.keys_append, List.mem_append,
    List.mem_append] at hk
  rcases hk with (hk | hk) | hk
  · exact h.restApi_not_mem_keys hk
  · have hrole := (ResourceMap.keys_ofRole_sublist result.events).subset hk
    exact absurd (List.mem_singleton.mp hrole) (by decide)
  · have hdeployment := (ResourceMap.keys_ofDeployment_sublist _ _ result.methodIds).subset hk
    exact absurd (List.mem_singleton.mp hdeployment) (by decide)

theorem detached_of_intact (hfound : found.Complete)
    (h : Compile.Intact found.toApi [] result) :
    Detached found
      ⟨found.toApi, result, assemble found.toApi (.str stageName) result, stageName⟩ where
  absent := restApi_not_mem_keys h
  path := by
    intro id entry hg ht
    obtain ⟨hapi, event, -, front, hf, hparent⟩ := (h.made_of_get?_assemble .empty hg).path_refs ht
    exact ⟨hapi.trans hfound.restApiId_toApi, hparent ▸ hfound.placeBelow_partsRef hf⟩
  method := by
    intro id entry hg ht
    obtain ⟨hapi, ⟨compiled, -, hplace⟩, hrole⟩ :=
      (h.made_of_get?_assemble .empty hg).method_refs ht
    exact ⟨hapi.trans hfound.restApiId_toApi,
      hplace ▸ hfound.placeBelow_partsRef List.prefix_rfl, hrole⟩
  deployment := by
    intro id entry hg ht
    obtain ⟨hapi, hmethods⟩ := (h.made_of_get?_assemble .empty hg).deployment_refs ht
    exact ⟨hapi.trans hfound.restApiId_toApi, hmethods⟩
  every := fun _ _ hg hm =>
    mentions_or_supplies_of_refers hfound ((h.made_of_get?_assemble .empty hg).refers h hm)

/-! ## Built stacks -/

theorem start_of_imports (h : input.Imports found) : start input = .ok (found.toApi, []) := by
  unfold StackInput.Imports at h
  unfold start
  rw [h]
  rfl

theorem imports_importing (found : FoundApi) (events : List Event) :
    (StackInput.importing found events).Imports found := rfl

theorem build_importing (found : FoundApi) (events : List Event) :
    (build (.importing found events)).outcome =
      .ok ⟨found.toApi, Compile.settleAll found.toApi {} 0 events,
        assemble found.toApi (.str "dev") (Compile.settleAll found.toApi {} 0 events), "dev"⟩ :=
  build_ok_iff.mpr ⟨_, _, _, _, start_of_imports (imports_importing found events),
    Compile.compile_lenient found.toApi events [], rfl, rfl⟩

/-- An event that reads one user at the root of the API. -/
def readRoot : Event := { Compile.readUser with path := "" }

/-- The method of this event, alone on an API that was found, is at the root that the stack takes.
-/
theorem exists_method_of_readRoot (found : FoundApi) :
    ∃ stack id entry, (build (.importing found [readRoot])).outcome = .ok stack ∧
      Entries.get? stack.resources id = some entry ∧
      entry.type = .str "AWS::ApiGateway::Method" ∧
      entry.property "RestApiId" = found.toApi.restApiId ∧
      entry.property "ResourceId" = found.toApi.rootResourceId := by
  have hc := Compile.compile_lenient found.toApi [readRoot] []
  have hi := Compile.Intact.compile Compile.Bare.empty.objects hc
  have hmade : Compile.Admitted found.toApi [] [] readRoot :=
    ⟨⟨_, rfl⟩, ⟨List.not_mem_nil, nofun⟩, nofun⟩
  have hcons : Compile.Consistent found.toApi [] [] [readRoot] :=
    ⟨by simpa using hmade, List.pairwise_singleton _ _⟩
  have hin : readRoot ∈ (Compile.settleAll found.toApi {} 0 [readRoot]).events := by
    rw [hcons.events_settleAll Compile.Bare.empty.objects]
    simp
  obtain ⟨compiled, hcompiled, he⟩ := List.mem_map.mp hin
  obtain ⟨method, hg, hm⟩ := hi.exists_method hcompiled
  refine ⟨_, _, _, build_importing found [readRoot],
    hi.get?_assemble .empty _ hg, rfl, ?_, ?_⟩
  · rw [method.property_restApiId, hm.restApiId]
  · rw [method.property_resourceId, hm.resourceId, he]
    rfl

/-- With the IDs of an API that a lookup has found a stack is built from any events, unless it is
strict; and all stacks on it are free of references to an API of their own exactly when both of its
IDs were found. Unless the lookup's kept answers are outdated, the account has such an API. -/
theorem build_detached_iff {account : Account} {session : LookupSession}
    {environment : Environment} {name : Text} {found : FoundApi}
    (hl : (session.restApi environment account (.str name)).2 = .ok (some found)) :
    (session.KeptFrom account → account.Has name found) ∧
      (∀ input stageName, input.Imports found → input.strict = false →
        input.stageName = .str stageName → ∃ stack, (build input).outcome = .ok stack) ∧
      ((∀ input stack, input.Imports found → (build input).outcome = .ok stack →
        Detached found stack) ↔ found.Complete) := by
  refine ⟨?_, ?_, ?_, ?_⟩
  · exact fun hs => Account.has_of_findRestApi (LookupSession.findRestApi_of_restApi hs hl)
  · exact fun input stageName hi hstrict hstage => exists_build (start_of_imports hi) hstrict hstage
  · intro hall
    obtain ⟨stack, id, entry, hb, hg, ht, hapi, hplace⟩ := exists_method_of_readRoot found
    have hdetached := hall _ stack (imports_importing found [readRoot]) hb
    obtain ⟨hid, hp, -⟩ := hdetached.method id entry hg ht
    constructor
    · intro hnull
      rw [hid, hnull, FoundApi.toApi, hnull] at hapi
      cases hapi
    · intro hnull
      rw [hplace, FoundApi.toApi, hnull] at hp
      exact not_placeBelow_own hnull hp
  · intro hfound input stack hi hb
    obtain ⟨api, given, result, stageName, hstart, hc, -, rfl⟩ := build_ok_iff.mp hb
    obtain ⟨rfl, rfl⟩ := Prod.mk.inj (Except.ok.inj ((start_of_imports hi).symm.trans hstart))
    exact detached_of_intact hfound (.compile Compile.Bare.empty.objects hc)

/-- An account with two APIs, of which the second one has its root on the second page. -/
def pagedAccount : Account where
  restApis :=
    [.obj [("items", .arr [.obj [("id", .str "x9y8z7"), ("name", .str "orders-api")]])],
      .obj [("items", .arr [.obj [("id", .str "a1b2c3"), ("name", .str "users-api")]])]]
  resources := [("a1b2c3",
    [.obj [("items", .arr [.obj [("id", .str "g7h8i9"), ("path", .str "/users")]])],
      .obj [("items", .arr [.obj [("id", .str "d4e5f6"), ("path", .str "/")]])]])]

/-- Its second API is found again from the kept answer, and a stack on it is free of references to
an own one. -/
theorem build_detached_iff_pagedAccount :
    ∃ (session : LookupSession) (found : FoundApi),
      session.KeptFrom pagedAccount ∧ session.restApis.entries.length = 1 ∧
      (session.restApi [] pagedAccount (.str "users-api")).2 = .ok (some found) ∧
      found = ⟨.str "a1b2c3", .str "d4e5f6"⟩ ∧ pagedAccount.Has "users-api" found ∧
      ∃ stack, (build (.importing found Compile.readAndWrite)).outcome = .ok stack ∧
        stack.resources.length = 9 ∧ Detached found stack := by
  let found : FoundApi := ⟨.str "a1b2c3", .str "d4e5f6"⟩
  have hkept := (LookupSession.keptFrom_empty pagedAccount).restApi [] (.str "users-api")
  have hl : ((LookupSession.restApi {} [] pagedAccount (.str "users-api")).1.restApi []
      pagedAccount (.str "users-api")).2 = .ok (some found) := by
    decide +kernel
  have hb := build_importing found Compile.readAndWrite
  obtain ⟨hhas, -, hiff⟩ := build_detached_iff hl
  have hcomplete : found.Complete := ⟨nofun, nofun⟩
  have hdetached := hiff.mpr hcomplete _ _ (imports_importing found _) hb
  refine ⟨_, found, hkept, ?_, hl, rfl, hhas hkept, _, hb, ?_, hdetached⟩
  · decide +kernel
  · decide +kernel

/-- An account with one API, which does not name its root and has no resources. -/
def rootlessAccount : Account where
  restApis :=
    [.obj [("items", .arr [.obj [("id", .str "a1b2c3"), ("name", .str "users-api")]])]]

/-- Its API is found without a root, and then a path resource of the stack on it refers to the root
of an own API, which the stack does not have. -/
theorem not_detached_rootlessAccount :
    ∃ found stack entry,
      (LookupSession.restApi {} [] rootlessAccount (.str "users-api")).2 = .ok (some found) ∧
      (build (.importing found [Compile.readUser])).outcome = .ok stack ∧
      restApiLogicalId ∉ Entries.keys stack.resources ∧
      Entries.get? stack.resources "ApiGatewayResourceUsers" = some entry ∧
      entry.property "ParentId" = Intrinsic.getAtt restApiLogicalId "RootResourceId" ∧
      ¬ Detached found stack := by
  let found : FoundApi := ⟨.str "a1b2c3", .null⟩
  let parent : PathResource :=
    ⟨Intrinsic.getAtt restApiLogicalId "RootResourceId", "users", .str "a1b2c3"⟩
  have hl : (LookupSession.restApi {} [] rootlessAccount (.str "users-api")).2 =
      .ok (some found) := by
    decide +kernel
  have hc := Compile.compile_lenient found.toApi [Compile.readUser] []
  have hi := Compile.Intact.compile Compile.Bare.empty.objects hc
  have hg : Entries.get? (assemble found.toApi (.str "dev")
      (Compile.settleAll found.toApi {} 0 [Compile.readUser])) "ApiGatewayResourceUsers" =
        some (.path parent) := by
    decide +kernel
  refine ⟨found, _, .path parent, hl, build_importing found _, restApi_not_mem_keys hi, hg, rfl, ?_⟩
  exact fun hd => not_placeBelow_own rfl (hd.path _ _ hg rfl).2

end Stack

end TableGateway
