import TableGateway.Proofs.Compile.Loaded
import TableGateway.Proofs.Route.LogicalId
import TableGateway.Proofs.Stack

/-! # IDs of what is compiled

Compiling loaded events gives a map that a template can be written from: every key is a valid ID,
and so is every ID that a method or a path resource refers to as its place. -/

namespace TableGateway

/-! ## Places -/

/-- Whether an entry of a map refers to an ID as its place: a method as the resource that it is
served at, or a path resource as its parent. -/
def ResourceMap.PlacesAt (resources : ResourceMap) (id : Text) : Prop :=
  ∃ key entry, Entries.get? resources key = some entry ∧
    (entry.property "ResourceId" = Intrinsic.ref id ∨ entry.property "ParentId" = Intrinsic.ref id)

/-- The reference to a place is made of the names of its parts, unless the place is the root. -/
theorem Route.validId_of_partsRef {api : Api} {parts : List Text} {id : Text}
    (h : partsRef api parts = Intrinsic.ref id) :
    ValidId id ∨ Intrinsic.ref id = api.rootResourceId := by
  by_cases hp : parts = []
  · subst hp
    exact Or.inr h.symm
  · rw [partsRef_of_ne_nil api hp] at h
    exact Or.inl (ref_injective h ▸ validId_partsId parts)

namespace Compile

/-! ## Maps with valid IDs -/

/-- Every key of a map is a valid ID, and so is the ID of every place, unless it is the one by which
the API refers to its root. -/
structure WellNamed (api : Api) (resources : ResourceMap) : Prop where
  keys : ∀ key ∈ Entries.keys resources, Route.ValidId key
  places : ∀ id, resources.PlacesAt id →
    Route.ValidId id ∨ Intrinsic.ref id = api.rootResourceId

namespace Intact

variable {api : Api} {given : ResourceMap} {result : Result}

theorem validId_of_mem_keys (hgiven : Bare given) (h : Intact api given result)
    (hmethods : ∀ event ∈ result.events, Route.SpellsMethod event.method) {key : Text}
    (hk : key ∈ Entries.keys result.resources) : Route.ValidId key := by
  obtain ⟨value, hg⟩ := Entries.exists_get?_of_mem_keys hk
  rcases h.origin key value hg with hv | hid | ⟨event, -, resource, hm, -⟩
  · rw [(hgiven.restApi_of_get? hv).1]
    exact Route.validId_restApi
  · rw [h.methodIds_eq] at hid
    obtain ⟨event, he, rfl⟩ := List.mem_map.mp hid
    exact Route.validId_methodLogicalId (Route.alphanumeric_pathName event.path)
      (hmethods event he)
  · rw [Route.resources_eq] at hm
    obtain ⟨front, -, -, rfl⟩ := Route.mem_keys_partsResources.mp (Entries.mem_keys_of_mem hm)
    exact Route.validId_partsId front

theorem validId_of_placesAt (hgiven : Bare given) (h : Intact api given result) {id : Text}
    (hp : result.resources.PlacesAt id) :
    Route.ValidId id ∨ Intrinsic.ref id = api.rootResourceId := by
  obtain ⟨key, entry, hg, hplace⟩ := hp
  rcases h.made_of_get? hg with
    hv | ⟨compiled, -, method, hm, rfl⟩ | ⟨event, -, parents, part, -, rfl⟩
  · -- The REST API itself is at no place.
    obtain ⟨-, name, rfl⟩ := hgiven.restApi_of_get? hv
    rcases hplace with hplace | hplace <;> cases hplace
  · rcases hplace with hplace | hplace
    · rw [method.property_resourceId, hm.resourceId, Route.resourceId_eq] at hplace
      exact Route.validId_of_partsRef hplace
    · rw [method.property_eq (by decide)] at hplace
      cases hplace
  · rcases hplace with hplace | hplace
    · cases hplace
    · exact Route.validId_of_partsRef hplace

theorem wellNamed (hgiven : Bare given) (h : Intact api given result)
    (hmethods : ∀ event ∈ result.events, Route.SpellsMethod event.method) :
    WellNamed api result.resources where
  keys := fun _ hk => h.validId_of_mem_keys hgiven hmethods hk
  places := fun _ hp => h.validId_of_placesAt hgiven hp

end Intact

/-! ## Loaded events -/

/-- A run compiles no other events than those it is given. -/
theorem mem_events_of_settleAll {api : Api} {result : Result} {index : Int} {events : List Event}
    {event : Event} (h : event ∈ (settleAll api result index events).events) :
    event ∈ result.events ∨ event ∈ events := by
  induction events generalizing result index with
  | nil => exact Or.inl h
  | cons first rest ih =>
      rcases ih h with hs | hr
      · cases ha : additions api result.resources first with
        | ok more =>
            rw [settle_of_ok ha, events_withEvent, List.mem_append, List.mem_singleton] at hs
            exact hs.imp_right fun he => List.mem_cons.mpr (Or.inl he)
        | error failure =>
            rw [settle_of_error ha] at hs
            exact Or.inl hs
      · exact Or.inr (List.mem_cons_of_mem first hr)

theorem spellsMethod_of_loaded {entries : List Json} {loaded : Loaded}
    (h : Loaded.ofConfig (.arr entries) = .ok loaded) {event : Event}
    (he : event ∈ loaded.events) : Route.SpellsMethod event.method := by
  obtain ⟨entry, -, ha⟩ := (mem_loaded_iff h).mp he
  obtain ⟨data, -, hc⟩ := Loaded.ofConfig_of_accepted ha
  exact Route.spellsMethod_of_mem (Event.method_mem_of_ofConfig hc)

/-- Names of paths are ASCII letters and digits, and those of their parts do not start in lower
case. So what is compiled from loaded events, on top of nothing or of the stack's own API, has valid
IDs as its keys and its places. Only the root is referred to as the API says, and neither the
stack's own API nor an imported one gives it an ID of the map. -/
theorem loaded_names_valid :
    (∀ path, Text.Alphanumeric (Route.pathName path) ∧
      ∀ part ∈ Text.parts path, ∀ first, (Route.partName part).head? = some first →
        first.isIn Char.isLower = false) ∧
    ∀ entries loaded, Loaded.ofConfig (.arr entries) = .ok loaded →
      ∀ api given, Bare given →
        (∃ result, (compile api false loaded.events given).outcome = .ok result) ∧
        ∀ strict result, (compile api strict loaded.events given).outcome = .ok result →
          WellNamed api result.resources ∧
            (api.Plain → ∀ id, result.resources.PlacesAt id → Route.ValidId id) := by
  refine ⟨fun path => ⟨Route.alphanumeric_pathName path,
    fun part _ first hf => Route.isLower_head_partName hf⟩, ?_⟩
  intro entries loaded h api given hgiven
  refine ⟨⟨_, compile_lenient api loaded.events given⟩, ?_⟩
  intro strict result hr
  have hmethods : ∀ event ∈ result.events, Route.SpellsMethod event.method := by
    intro event he
    rw [compile_eq_settleAll hr] at he
    exact spellsMethod_of_loaded h ((mem_events_of_settleAll he).resolve_left List.not_mem_nil)
  have hnamed := (Intact.compile hgiven.objects hr).wellNamed hgiven hmethods
  refine ⟨hnamed, ?_⟩
  intro hapi id hp
  exact (hnamed.places id hp).resolve_right (hapi.ref_ne_root id)

/-- An entry for a path in several scripts, with a variable, dashes and slashes to spare. -/
def manyScripts : List Json :=
  [.obj [("dynamodb", .obj [("path", .str "//straße-{id}/\n日本//été/"), ("method", .str "GET"),
    ("action", .str "GetItem"), ("tableName", .str "Users")])]]

/-- Little is left of the path in its name, but nothing that could not stand in an ID. -/
theorem loaded_names_valid_manyScripts :
    Text.Alphanumeric (Route.pathName "//straße-{id}/\n日本//été/") ∧
      Route.pathName "//straße-{id}/\n日本//été/" = "StraeDashidVarT" ∧
      ∃ loaded, Loaded.ofConfig (.arr manyScripts) = .ok loaded ∧ loaded.events.length = 1 ∧
        ∃ result, (compile Api.own false loaded.events (.ownApi (.str "users-api"))).outcome =
            .ok result ∧
          WellNamed Api.own result.resources ∧
          ∀ id, result.resources.PlacesAt id → Route.ValidId id := by
  have h : Loaded.ofConfig (.arr manyScripts) = .ok (Loaded.gathered 0 manyScripts) := by
    decide +kernel
  obtain ⟨hpath, hcompiled⟩ := loaded_names_valid
  obtain ⟨⟨result, hr⟩, hnamed⟩ :=
    hcompiled _ _ h Api.own (.ownApi (.str "users-api")) (.ownApi _)
  obtain ⟨hmap, hplaces⟩ := hnamed false result hr
  exact ⟨(hpath _).1, by decide +kernel, _, h, by decide +kernel, result, hr, hmap, hplaces .own⟩

end Compile

end TableGateway
