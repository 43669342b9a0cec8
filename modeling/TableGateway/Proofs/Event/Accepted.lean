import TableGateway.Proofs.Event.Loading
import TableGateway.Proofs.Method.Making

/-! # What accepted entries are good for

Reading an entry checks all that the making of its method needs, but for one thing: the origins only
have to be a value with items, and the items are looked at when they are joined. -/

namespace TableGateway

/-- Whether the items of a list are texts; other values have no items that could be none. -/
def Json.TextItems : Json → Prop
  | arr items => ∀ item ∈ items, ∃ text, item = .str text
  | _ => True

/-! ## Origins -/

theorem Cors.joinable_of_originsOfConfig {value : Json} {origins : List Json}
    (h : originsOfConfig value = .ok origins) :
    (∀ origin ∈ origins, ∃ text, origin = .str text) ↔ value.TextItems := by
  unfold originsOfConfig at h
  by_cases hv : value.truthy = true
  · rw [if_pos hv] at h
    cases value with
    | null | bool b | int n | float x => simp [Json.elements] at h
    | str s | obj fields =>
        simp only [Json.elements, Except.ok.injEq] at h
        subst h
        simp only [Json.TextItems, List.forall_mem_map, Json.str.injEq, exists_eq', implies_true]
    | arr items =>
        simp only [Json.elements, Except.ok.injEq] at h
        subst h
        rfl
  · rw [if_neg hv, Except.ok.injEq] at h
    subst h
    cases value with
    | arr items =>
        have hi : items = [] := by simpa [Json.truthy] using hv
        simp [hi, Json.TextItems]
    | null | bool b | int n | float x | str s | obj fields => simp [Json.TextItems]

theorem Cors.joinable_iff {value : Json} {cors : Option Cors} (h : ofConfig value = .ok cors) :
    (∀ settings, cors = some settings → settings.Joinable) ↔ (value.field "origins").TextItems := by
  unfold ofConfig at h
  by_cases hv : value.truthy = true
  · rw [if_pos hv] at h
    cases value with
    | null | int n | float x | str s | arr items => cases h
    | bool b =>
        obtain rfl := Except.ok.inj h
        simp [Joinable, Json.field, Json.TextItems]
    | obj fields =>
        simp only [mapError_eq_ok, map_eq_ok, ofFields] at h
        obtain ⟨_, ⟨origins, ho, rfl⟩, rfl⟩ := h
        simpa [Joinable] using joinable_of_originsOfConfig ho
  · rw [if_neg hv, Except.ok.injEq] at h
    subst h
    have hf : value.field "origins" = .null := by
      cases value with
      | obj fields =>
          have hi : fields = [] := by simpa [Json.truthy] using hv
          subst hi
          rfl
      | null | bool b | int n | float x | str s | arr items => rfl
    simp [hf, Json.TextItems]

namespace Event

/-! ## Blocks -/

/-- A block is read as the object that it is, and a missing one as an empty object. -/
theorem field_of_blockFields {data : Json} {block : Text} {fields : List (Text × Json)}
    (h : blockFields data block = .ok fields) (name : Text) :
    data.field name = Json.field (.obj fields) name := by
  cases data with
  | null | obj given =>
      obtain rfl := Except.ok.inj h
      rfl
  | bool b | int n | float x | str s | arr items => cases h

/-! ## Overrides -/

theorem overrides?_objectOrNull (fields : List (Text × Json)) :
    (objectOrNull fields).overrides? = some fields := by
  cases fields <;> rfl

theorem checkTemplates_ok_iff {templates : List (Text × Json)} :
    checkTemplates templates = .ok () ↔ ∀ entry ∈ templates, isTemplate entry.2 = true := by
  unfold checkTemplates
  cases hf : templates.find? fun entry => !isTemplate entry.2 with
  | none => simpa using hf
  | some entry =>
      have hm := List.mem_of_find?_eq_some hf
      have hn := List.find?_some hf
      simp only [reduceCtorEq, false_iff]
      intro hall
      rw [hall entry hm] at hn
      cases hn

theorem responseOverrides_ok {value overrides : Json}
    (h : responseOverrides value = .ok overrides) :
    ∃ fields, overrides.overrides? = some fields ∧
      ∀ entry ∈ fields, isTemplate entry.2 = true := by
  simp only [responseOverrides, bind_eq_ok, pure_eq_ok] at h
  obtain ⟨fields, -, ⟨⟩, hc, rfl⟩ := h
  exact ⟨fields, overrides?_objectOrNull fields, checkTemplates_ok_iff.mp hc⟩

/-! ## Entries -/

/-- What reading an entry checks for the making of its method. -/
structure Checked (event : Event) : Prop where
  action : ∃ action, event.action = .known action
  request : ∃ overrides, event.requestTemplates.overrides? = some overrides
  response : ∃ overrides, event.responseTemplates.overrides? = some overrides ∧
    ∀ entry ∈ overrides, isTemplate entry.2 = true

theorem checked_of_ofFields {fields : List (Text × Json)} {event : Event}
    (h : ofFields fields = .ok event) : event.Checked := by
  simp only [ofFields, bind_eq_ok, pure_eq_ok] at h
  obtain ⟨-, -, method, -, path, -, request, -, response, -, templates, -, action, -, hash, -,
    range, -, auth, -, overrides, ho, rfl⟩ := h
  exact ⟨⟨action, rfl⟩, ⟨templates, overrides?_objectOrNull templates⟩, responseOverrides_ok ho⟩

theorem mem_of_methodOfConfig {value : Json} {method : Text}
    (h : methodOfConfig value = .ok method) : method ∈ httpMethods := by
  by_cases hm : Text.lower value.display ∈ httpMethods
  · rw [methodOfConfig, if_pos hm] at h
    exact Except.ok.inj h ▸ hm
  · rw [methodOfConfig, if_neg hm] at h
    cases h

theorem method_mem_of_ofFields {fields : List (Text × Json)} {event : Event}
    (h : ofFields fields = .ok event) : event.method ∈ httpMethods := by
  simp only [ofFields, bind_eq_ok, pure_eq_ok] at h
  obtain ⟨-, -, method, hm, path, -, request, -, response, -, templates, -, action, -, hash, -,
    range, -, auth, -, overrides, -, rfl⟩ := h
  exact mem_of_methodOfConfig hm

/-- The method of an event from configuration is one of those that can be bound, in lower case. -/
theorem method_mem_of_ofConfig {data : Json} {event : Event} (h : ofConfig data = .ok event) :
    event.method ∈ httpMethods := by
  simp only [ofConfig, bind_eq_ok, mapError_eq_ok, pure_eq_ok] at h
  obtain ⟨fields, -, read, hr, cors, -, rfl⟩ := h
  have hm : read.method ∈ httpMethods := method_mem_of_ofFields hr
  exact hm

theorem Checked.withCors {event : Event} (h : event.Checked) (cors : Option Cors) :
    ({ event with cors := cors } : Event).Checked := ⟨h.action, h.request, h.response⟩

theorem ofConfig_ok {data : Json} {event : Event} (h : ofConfig data = .ok event) :
    event.Checked ∧ ((∀ cors, event.cors = some cors → cors.Joinable) ↔
      ((data.field "cors").field "origins").TextItems) := by
  simp only [ofConfig, bind_eq_ok, mapError_eq_ok, pure_eq_ok] at h
  obtain ⟨fields, hf, read, hr, cors, hc, rfl⟩ := h
  rw [field_of_blockFields hf]
  exact ⟨(checked_of_ofFields hr).withCors cors, Cors.joinable_iff hc⟩

/-- A checked event makes its method exactly when its origins can be joined. -/
theorem Checked.makeable_iff {event : Event} (h : event.Checked) :
    event.Makeable ↔ ∀ cors, event.cors = some cors → cors.Joinable := by
  constructor
  · exact Makeable.origins
  · intro ho
    obtain ⟨overrides, hr, hall⟩ := h.response
    exact ⟨h.action, h.request, ⟨overrides, hr, fun entry he _ => hall entry he⟩, ho⟩

/-- What a checked event does not make fails with a fault, and not with a cause. -/
theorem Checked.ofEvent_error {event : Event} (h : event.Checked) {api : Api} {failure : Failure}
    (hf : MethodResource.ofEvent api event = .error failure) :
    ∃ i kind, failure = .unexpected (.itemNotText i kind) := by
  obtain ⟨overrides, hr, hall⟩ := h.response
  apply MethodResource.ofEvent_error hf h.action h.request
  exact Mapping.responseTemplates_ok_iff.mpr ⟨overrides, hr, fun entry he _ => hall entry he⟩

end Event

namespace Loaded

theorem ofConfig_of_accepted {entry : Json} {event : Event} (h : accepted? entry = some event) :
    ∃ data, entryData? entry = some data ∧ Event.ofConfig data = .ok event := by
  unfold accepted? at h
  cases hd : entryData? entry with
  | none => simp [hd] at h
  | some data =>
      rw [hd, Option.map_some] at h
      split at h
      · rename_i found hv
        obtain rfl := Option.some.inj h
        exact ⟨data, rfl, Option.some.inj hv⟩
      · cases h

theorem checked_of_accepted {entry : Json} {event : Event} (h : accepted? entry = some event) :
    event.Checked := by
  obtain ⟨data, -, hc⟩ := ofConfig_of_accepted h
  exact (Event.ofConfig_ok hc).1

/-- The method of an accepted entry is made exactly when the items of its origins are texts. -/
theorem ofEvent_ok_iff_of_accepted {entry : Json} {event : Event}
    (h : accepted? entry = some event) (api : Api) :
    (∃ method, MethodResource.ofEvent api event = .ok method) ↔ (originsOf entry).TextItems := by
  obtain ⟨data, hd, hc⟩ := ofConfig_of_accepted h
  obtain ⟨hchecked, horigins⟩ := Event.ofConfig_ok hc
  have ho : originsOf entry = (data.field "cors").field "origins" := by simp [originsOf, hd]
  rw [MethodResource.ofEvent_ok_iff, hchecked.makeable_iff, horigins, ho]

theorem events_eq {entries : List Json} {loaded : Loaded}
    (h : ofConfig (.arr entries) = .ok loaded) :
    loaded.events = entries.filterMap accepted? := by
  rw [(eq_gathered h).2]
  rfl

end Loaded

end TableGateway
