import TableGateway.Proofs.Compile.Selection
import TableGateway.Proofs.Method.Making
import TableGateway.Proofs.Route.Climb

/-! # Where compiled methods are served

Collisions are found between two events, so every path resource stands in the map as its own path
made it. A method is therefore served at its path as long as the path does not collide with itself:
two prefixes of one path have one ID when the longer one ends with parts that have no name, and then
the shorter one is written over. -/

namespace TableGateway

/-! ## Path resources that are the same -/

theorem PathResource.normal_toJson (r : PathResource) :
    Json.normal r.toJson =
      .obj [("Properties", .obj [("ParentId", Json.normal r.parentId), ("PathPart", .str r.pathPart),
          ("RestApiId", Json.normal r.restApiId)]),
        ("Type", .str "AWS::ApiGateway::Resource")] := by
  simp only [PathResource.toJson, Json.normal, Json.normalFields, Json.insertField]
  rfl

/-- Resources that are the same have one part, and parents that are the same. -/
theorem PathResource.of_same {r s : PathResource} (h : Json.Same r.toJson s.toJson) :
    r.pathPart = s.pathPart ∧ Json.Same r.parentId s.parentId := by
  unfold Json.Same at h
  rw [r.normal_toJson, s.normal_toJson] at h
  simp only [Json.obj.injEq, List.cons.injEq, Prod.mk.injEq, Json.str.injEq, true_and,
    and_true] at h
  exact ⟨h.2.1, h.1⟩

/-- References to path resources and to the root are in normal form. -/
theorem Api.Plain.normal_partsRef {api : Api} (h : api.Plain) (parts : List Text) :
    Json.normal (Route.partsRef api parts) = Route.partsRef api parts := by
  by_cases hp : parts = []
  · subst hp
    cases h <;> rfl
  · rw [Route.partsRef_of_ne_nil api hp]
    rfl

theorem Api.Plain.eq_of_same {api : Api} (h : api.Plain) {path other key : Text}
    {r s : PathResource} (hr : (key, r) ∈ Route.resources api path)
    (hs : (key, s) ∈ Route.resources api other) (he : Json.Same r.toJson s.toJson) : r = s := by
  rw [Route.resources_eq] at hr hs
  obtain ⟨parents, part, -, hr⟩ := Route.exists_prefix_of_mem hr
  obtain ⟨parents', part', -, hs⟩ := Route.exists_prefix_of_mem hs
  obtain ⟨-, rfl⟩ := Prod.mk.inj hr
  obtain ⟨-, rfl⟩ := Prod.mk.inj hs
  obtain ⟨hpart, hparent⟩ := PathResource.of_same he
  unfold Json.Same at hparent
  rw [h.normal_partsRef, h.normal_partsRef] at hparent
  simp only at hpart
  rw [hpart, hparent]

namespace Compile

/-! ## Starting from nothing -/

/-- A map that nothing was compiled into: it is empty, or it has the stack's own API alone. -/
inductive Bare : ResourceMap → Prop where
  | empty : Bare []
  | ownApi (name : Json) : Bare (.ownApi name)

theorem Bare.objects {given : ResourceMap} (h : Bare given) : given.Objects := by
  cases h with
  | empty => simp [ResourceMap.Objects]
  | ownApi name => exact objects_ownApi name

/-- The one entry of such a map, if there is any, is the API. -/
theorem Bare.restApi_of_get? {given : ResourceMap} (h : Bare given) {key : Text} {value : Resource}
    (hg : Entries.get? given key = some value) :
    key = restApiLogicalId ∧ ∃ name, value = .restApi ⟨name⟩ := by
  cases h with
  | empty => cases hg
  | ownApi name =>
      obtain ⟨rfl, rfl⟩ := Prod.mk.inj (List.mem_singleton.mp (Entries.mem_of_get? hg))
      exact ⟨rfl, name, rfl⟩

theorem Bare.get?_of_mem {given : ResourceMap} (h : Bare given) {api : Api} {path key : Text}
    (hk : key ∈ Entries.keys (Route.resources api path)) : Entries.get? given key = none := by
  cases h with
  | empty => rfl
  | ownApi name =>
      rw [Entries.get?_eq_none_iff]
      intro hm
      obtain rfl : key = restApiLogicalId := by simpa [ResourceMap.ownApi, Entries.keys] using hm
      have hf := Route.idFamily_of_mem_keys hk
      rw [Route.idFamily_restApi] at hf
      exact absurd hf (by decide)

theorem Intact.compile {api : Api} {strict : Bool} {events : List Event} {given : ResourceMap}
    {result : Result} (hgiven : given.Objects)
    (h : (Compile.compile api strict events given).outcome = .ok result) :
    Intact api given result :=
  addEvents_preserves (fun _ _ _ _ hi hn => hi.addEvent hn) (Intact.start api hgiven)
    (addEvents_of_compile h)

/-! ## Path resources stand as they were made -/

namespace Intact

variable {api : Api} {given : ResourceMap} {result : Result}

/-- What stands under the ID of a path resource was made from the path of a compiled event. -/
theorem path_origin (hgiven : Bare given) (h : Intact api given result) {path key : Text}
    (hk : key ∈ Entries.keys (Route.resources api path)) {value : Resource}
    (hg : Entries.get? result.resources key = some value) :
    ∃ event ∈ result.events, ∃ resource,
      (key, resource) ∈ Route.resources api event.path ∧ value = .path resource := by
  rcases h.origin key value hg with hv | hid | ho
  · rw [hgiven.get?_of_mem hk] at hv
    cases hv
  · rw [h.methodIds_eq] at hid
    obtain ⟨event, -, rfl⟩ := List.mem_map.mp hid
    exact absurd hk (Route.methodLogicalId_not_mem_keys api path _ _)
  · exact ho

theorem held (hapi : api.Plain) (hgiven : Bare given) (h : Intact api given result)
    {event : Event} (he : event ∈ result.events) :
    Route.Held api result.resources (Text.parts event.path) := by
  rintro ⟨key, resource⟩ hm
  rw [← Route.resources_eq] at hm
  obtain ⟨value, hg, hs⟩ := h.paths event he _ hm
  obtain ⟨other, -, found, hf, rfl⟩ := h.path_origin hgiven (Entries.mem_keys_of_mem hm) hg
  rw [hg, hapi.eq_of_same hf hm hs]

/-- Every path resource in the map ends a front of the path of a compiled event. -/
theorem exists_front (hgiven : Bare given) (h : Intact api given result) {key : Text}
    {resource : PathResource}
    (hg : Entries.get? result.resources key = some (.path resource)) :
    ∃ event ∈ result.events, ∃ front, front <+: Text.parts event.path ∧ front ≠ [] ∧
      key = Route.partsId front := by
  rcases h.origin key _ hg with hv | hid | ⟨event, he, found, hm, -⟩
  · obtain ⟨-, name, hr⟩ := hgiven.restApi_of_get? hv
    cases hr
  · obtain ⟨compiled, hc, rfl⟩ := List.mem_map.mp hid
    obtain ⟨-, method, -, hmethod⟩ := h.methods compiled hc
    simp [hmethod] at hg
  · rw [Route.resources_eq] at hm
    obtain ⟨front, hf, hne, hk⟩ := Route.mem_keys_partsResources.mp (Entries.mem_keys_of_mem hm)
    exact ⟨event, he, front, hf, hne, hk⟩

end Intact

/-! ## Methods at their paths -/

/-- The reference of a compiled method to the resource it is served at. -/
def ServedAt (result : Result) (compiled : Compiled) (reference : Json) : Prop :=
  ∃ method, Entries.get? result.resources compiled.logicalId = some (.method method) ∧
    method.resourceId = reference

/-- From the resource a method is served at, the climb to the root passes exactly the parts of the
path of its event. -/
def Reaches (api : Api) (result : Result) (compiled : Compiled) : Prop :=
  ∃ reference, ServedAt result compiled reference ∧
    Route.Climbs api result.resources reference (Text.parts compiled.event.path)

/-- Every method is served at its own path. -/
structure Served (api : Api) (result : Result) : Prop where
  reaches : ∀ compiled ∈ result.compiled, Reaches api result compiled
  treelike : ∀ id, ¬ Relation.TransGen (Route.Below result.resources) id id
  apart : ∀ one ∈ result.compiled, ∀ other ∈ result.compiled,
    Text.parts one.event.path ≠ Text.parts other.event.path →
    ∀ reference, ServedAt result one reference → ¬ ServedAt result other reference

namespace Intact

variable {api : Api} {given : ResourceMap} {result : Result}

theorem servedAt_iff (h : Intact api given result) {compiled : Compiled}
    (hc : compiled ∈ result.compiled) {reference : Json} :
    ServedAt result compiled reference ↔
      reference = Route.partsRef api (Text.parts compiled.event.path) := by
  obtain ⟨-, method, hm, hg⟩ := h.methods compiled hc
  have hid : method.resourceId = Route.partsRef api (Text.parts compiled.event.path) := by
    rw [(MethodResource.madeFrom_of_ofEvent hm).resourceId, Route.resourceId_eq]
  constructor
  · rintro ⟨found, hf, rfl⟩
    obtain rfl := Resource.method.inj (Option.some.inj (hg.symm.trans hf))
    exact hid
  · rintro rfl
    exact ⟨method, hg, hid⟩

theorem reaches_iff (hapi : api.Plain) (hgiven : Bare given) (h : Intact api given result)
    {compiled : Compiled} (hc : compiled ∈ result.compiled) :
    Reaches api result compiled ↔ Route.NamedBelow (Text.parts compiled.event.path) := by
  have hh := h.held hapi hgiven (List.mem_map_of_mem hc)
  rw [← hh.climbs_iff hapi]
  unfold Reaches
  constructor
  · rintro ⟨reference, hs, hclimb⟩
    exact (h.servedAt_iff hc).mp hs ▸ hclimb
  · intro hclimb
    exact ⟨_, (h.servedAt_iff hc).mpr rfl, hclimb⟩

/-- Where every compiled path has its names, each path resource can be climbed from, and so none is
its own ancestor; a path without them has one that is its own parent. -/
theorem treelike_iff (hapi : api.Plain) (hgiven : Bare given) (h : Intact api given result) :
    (∀ id, ¬ Relation.TransGen (Route.Below result.resources) id id) ↔
      ∀ compiled ∈ result.compiled, Route.NamedBelow (Text.parts compiled.event.path) := by
  constructor
  · intro ht compiled hc
    by_contra hn
    obtain ⟨id, -, hid⟩ := (h.held hapi hgiven (List.mem_map_of_mem hc)).strays hn
    exact ht id (.single hid)
  · intro hn id ht
    obtain ⟨parent, ⟨resource, hg, -⟩, -⟩ := Relation.TransGen.head'_iff.mp ht
    obtain ⟨event, he, front, hf, hne, rfl⟩ := h.exists_front hgiven hg
    obtain ⟨compiled, hc, rfl⟩ := List.mem_map.mp he
    obtain ⟨hh, hnf⟩ := (h.held hapi hgiven he).front (hn compiled hc) hf
    have hclimb := hh.climbs hnf
    rw [Route.partsRef_of_ne_nil api hne] at hclimb
    exact hclimb.not_own_ancestor hapi ht

/-- A method whose path has its names shares its resource with methods of the same path only. -/
theorem apart (hapi : api.Plain) (hgiven : Bare given) (h : Intact api given result)
    {one other : Compiled} (hone : one ∈ result.compiled) (hother : other ∈ result.compiled)
    (hn : Route.NamedBelow (Text.parts one.event.path)) {reference : Json}
    (hr : ServedAt result one reference) (hr' : ServedAt result other reference) :
    Text.parts one.event.path = Text.parts other.event.path := by
  have hclimb := (h.held hapi hgiven (List.mem_map_of_mem hone)).climbs hn
  have hother' := h.held hapi hgiven (List.mem_map_of_mem hother)
  rw [← (h.servedAt_iff hone).mp hr, (h.servedAt_iff hother).mp hr'] at hclimb
  by_cases hn' : Route.NamedBelow (Text.parts other.event.path)
  · exact hclimb.unique hapi (hother'.climbs hn')
  · exact absurd hclimb (hother'.not_climbs hapi hn' _)

theorem served_iff (hapi : api.Plain) (hgiven : Bare given) (h : Intact api given result) :
    Served api result ↔
      ∀ compiled ∈ result.compiled, Route.NamedBelow (Text.parts compiled.event.path) := by
  constructor
  · intro hs compiled hc
    exact (h.reaches_iff hapi hgiven hc).mp (hs.reaches compiled hc)
  · intro hn
    refine ⟨fun compiled hc => (h.reaches_iff hapi hgiven hc).mpr (hn compiled hc),
      (h.treelike_iff hapi hgiven).mpr hn, ?_⟩
    intro one hone other hother hne reference hr hr'
    exact hne (h.apart hapi hgiven hone hother (hn one hone) hr hr')

end Intact

/-- A method is served at its own path exactly when every part below the first has a name. Such a
method shares its resource with no other path, and all methods are served at their own paths exactly
when all compiled paths are of this kind. -/
theorem compile_serves_iff {api : Api} (hapi : api.Plain) {given : ResourceMap}
    (hgiven : Bare given) {strict : Bool} {events : List Event} {result : Result}
    (h : (compile api strict events given).outcome = .ok result) :
    (∀ compiled ∈ result.compiled,
      (Reaches api result compiled ↔ Route.NamedBelow (Text.parts compiled.event.path))) ∧
    (∀ one ∈ result.compiled, Route.NamedBelow (Text.parts one.event.path) →
      ∀ other ∈ result.compiled, ∀ reference,
        ServedAt result one reference → ServedAt result other reference →
        Text.parts one.event.path = Text.parts other.event.path) ∧
    ((∀ id, ¬ Relation.TransGen (Route.Below result.resources) id id) ↔
      ∀ compiled ∈ result.compiled, Route.NamedBelow (Text.parts compiled.event.path)) ∧
    (Served api result ↔
      ∀ compiled ∈ result.compiled, Route.NamedBelow (Text.parts compiled.event.path)) := by
  have hi := Intact.compile hgiven.objects h
  refine ⟨fun compiled hc => hi.reaches_iff hapi hgiven hc, ?_, hi.treelike_iff hapi hgiven,
    hi.served_iff hapi hgiven⟩
  intro one hone hn other hother reference hr hr'
  exact hi.apart hapi hgiven hone hother hn hr hr'

/-- The method that reads a user is served at the two parts of its path. -/
theorem compile_serves_iff_readUser :
    Api.Plain .own ∧ Bare [] ∧ ∃ result compiled,
      (compile Api.own false [readUser] []).outcome = .ok result ∧
      result.compiled = [compiled] ∧ compiled.event = readUser ∧ Served Api.own result ∧
      ∃ reference, ServedAt result compiled reference ∧
        Route.Climbs Api.own result.resources reference ["users", "{id}"] := by
  have h := compile_lenient Api.own [readUser] []
  have hcompiled : (settleAll Api.own { resources := [] } 0 [readUser]).compiled =
      [⟨"ApiGatewayMethodUsersIdVarGet", readUser⟩] := by
    decide +kernel
  have hparts : Text.parts readUser.path = ["users", "{id}"] := by decide +kernel
  have hnamed : Route.NamedBelow (Text.parts readUser.path) := by decide +kernel
  obtain ⟨hreaches, -, -, hserved⟩ := compile_serves_iff .own .empty h
  have hone : Reaches Api.own (settleAll Api.own { resources := [] } 0 [readUser])
      ⟨"ApiGatewayMethodUsersIdVarGet", readUser⟩ :=
    (hreaches _ (hcompiled ▸ List.mem_singleton_self _)).mpr hnamed
  refine ⟨.own, .empty, _, _, h, hcompiled, rfl, hserved.mpr ?_, ?_⟩
  · intro compiled hc
    rw [hcompiled, List.mem_singleton] at hc
    exact hc ▸ hnamed
  · unfold Reaches at hone
    rwa [hparts] at hone

/-- An event whose path ends with a part that has no name. -/
def readNameless : Event := { readUser with path := "a/_" }

/-- The method of such a path is compiled, and the resource that it is served at is its own
parent. -/
theorem not_served_readNameless :
    ∃ result, (compile Api.own false [readNameless] []).outcome = .ok result ∧
      result.events = [readNameless] ∧
      Route.Below result.resources "ApiGatewayResourceA" "ApiGatewayResourceA" ∧
      ¬ Served Api.own result := by
  have hloop : Entries.get? (settleAll Api.own { resources := [] } 0 [readNameless]).resources
      "ApiGatewayResourceA" =
        some (.path ⟨Intrinsic.ref "ApiGatewayResourceA", "_", Api.own.restApiId⟩) := by
    decide +kernel
  have hevents : (settleAll Api.own { resources := [] } 0 [readNameless]).events =
      [readNameless] := by
    decide +kernel
  have hbelow : Route.Below (settleAll Api.own { resources := [] } 0 [readNameless]).resources
      "ApiGatewayResourceA" "ApiGatewayResourceA" := ⟨_, hloop, rfl⟩
  exact ⟨_, compile_lenient Api.own [readNameless] [], hevents, hbelow,
    fun hs => hs.treelike _ (.single hbelow)⟩

end Compile

end TableGateway
