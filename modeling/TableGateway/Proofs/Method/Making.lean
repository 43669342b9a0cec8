import TableGateway.Event.Loader
import TableGateway.Method
import TableGateway.Proofs.Outcome

/-! # When a method is made

A method is made from an event exactly when the action is one of the enumeration, the overrides are
maps with templates in them, and the origins can be joined. The last condition fails with a fault,
the others with a cause. -/

namespace TableGateway

/-! ## Origins -/

/-- Whether the origins of the settings can be joined to one text. -/
def Cors.Joinable (cors : Cors) : Prop := ∀ origin ∈ cors.origins, ∃ text, origin = .str text

namespace Cors

theorem originTexts_ok_iff (position : Nat) {origins : List Json} :
    (∃ texts, originTexts position origins = .ok texts) ↔
      ∀ origin ∈ origins, ∃ text, origin = .str text := by
  induction origins generalizing position with
  | nil => simp [originTexts]
  | cons origin rest ih =>
      cases origin with
      | str s =>
          have hrest := ih (position + 1)
          simp only [originTexts, map_eq_ok, List.forall_mem_cons, ← hrest]
          constructor
          · rintro ⟨-, texts, ht, -⟩
            exact ⟨⟨s, rfl⟩, texts, ht⟩
          · rintro ⟨-, texts, ht⟩
            exact ⟨_, texts, ht, rfl⟩
      | null | bool b | int n | float x | arr items | obj fields => simp [originTexts]

theorem originTexts_error {position : Nat} {origins : List Json} {fault : Fault}
    (h : originTexts position origins = .error fault) : ∃ i kind, fault = .itemNotText i kind := by
  induction origins generalizing position with
  | nil => simp [originTexts] at h
  | cons origin rest ih =>
      cases origin with
      | str s =>
          cases hr : originTexts (position + 1) rest with
          | ok texts => simp [originTexts, hr, Except.map] at h
          | error other =>
              obtain rfl : other = fault := by simpa [originTexts, hr, Except.map] using h
              exact ih hr
      | null | bool b | int n | float x | arr items | obj fields =>
          exact ⟨_, _, (Except.error.inj h).symm⟩

theorem headers_ok_iff {cors : Cors} : (∃ headers, cors.headers = .ok headers) ↔ cors.Joinable := by
  have ht : (∃ text, cors.originText = .ok text) ↔ cors.Joinable := by
    unfold originText Joinable
    cases ho : cors.origins with
    | nil => simp
    | cons origin rest =>
        rw [← originTexts_ok_iff 0]
        simp only [List.isEmpty_cons, Bool.false_eq_true, if_false, map_eq_ok]
        exact ⟨fun ⟨_, texts, h, _⟩ => ⟨texts, h⟩, fun ⟨texts, h⟩ => ⟨_, texts, h, rfl⟩⟩
  rw [← ht]
  simp only [headers, map_eq_ok]
  exact ⟨fun ⟨_, text, h, _⟩ => ⟨text, h⟩, fun ⟨text, h⟩ => ⟨_, text, h, rfl⟩⟩

/-- The headers fail in one way only: an origin is no text. -/
theorem headers_error {cors : Cors} {fault : Fault} (h : cors.headers = .error fault) :
    ∃ i kind, fault = .itemNotText i kind := by
  unfold headers at h
  cases ht : cors.originText with
  | ok text => simp [ht, Except.map] at h
  | error other =>
      obtain rfl : other = fault := by simpa [ht, Except.map] using h
      unfold originText at ht
      split at ht
      · cases ht
      · cases hs : originTexts 0 cors.origins with
        | ok texts => simp [hs, Except.map] at ht
        | error first =>
            obtain rfl : first = other := by simpa [hs, Except.map] using ht
            exact originTexts_error hs

end Cors

/-! ## Overrides -/

/-- The overrides in a value: the fields of an object, and none when nothing is given. -/
def Json.overrides? : Json → Option (List (Text × Json))
  | obj fields => some fields
  | other => if other.truthy then none else some []

namespace Mapping

theorem requestOverrides_ok_iff {event : Event} {overrides : List (Text × Json)} :
    requestOverrides event = .ok overrides ↔
      event.requestTemplates.overrides? = some overrides := by
  unfold requestOverrides
  cases event.requestTemplates with
  | obj fields => simp [Json.overrides?]
  | null | bool b | int n | float x | str s | arr items =>
      simp only [Json.overrides?]
      split <;> simp

theorem responseOverrides_ok_iff {event : Event} {overrides : List (Text × Json)} :
    responseOverrides event = .ok overrides ↔
      event.responseTemplates.overrides? = some overrides := by
  unfold responseOverrides
  cases event.responseTemplates with
  | obj fields => simp [Json.overrides?]
  | null | bool b | int n | float x | str s | arr items =>
      simp only [Json.overrides?]
      split <;> simp

/-- An outcome is overridden by text or an object, and not at all by what is not given. -/
theorem overrideTemplates_ok_iff (outcome : Outcome) {value : Json} (h : value.truthy = true) :
    (∃ replaced, overrideTemplates outcome value = .ok replaced) ↔
      Event.isTemplate value = true := by
  cases value <;> simp [overrideTemplates, Event.isTemplate, h]

theorem override_ok_iff {templates : ResponseTemplates} {overrides : List (Text × Json)} :
    (∃ replaced, templates.override overrides = .ok replaced) ↔
      ∀ entry ∈ overrides, entry.1 ∈ Outcome.all.map Outcome.name →
        Event.isTemplate entry.2 = true := by
  induction overrides generalizing templates with
  | nil => simp [ResponseTemplates.override]
  | cons entry rest ih =>
      obtain ⟨name, value⟩ := entry
      simp only [ResponseTemplates.override, List.forall_mem_cons]
      cases hf : Outcome.all.find? (·.name == name) with
      | none =>
          have hn : name ∉ Outcome.all.map Outcome.name := by
            simpa [List.find?_eq_none] using hf
          simp [ih, hn]
      | some outcome =>
          have hn : name ∈ Outcome.all.map Outcome.name := by
            obtain ⟨hname, hm⟩ := And.intro (List.find?_some hf) (List.mem_of_find?_eq_some hf)
            exact List.mem_map.mpr ⟨outcome, hm, by simpa using hname⟩
          by_cases hv : value.truthy = true
          · simp only [hv, if_true, hn, true_implies, ← overrideTemplates_ok_iff outcome hv]
            cases ho : overrideTemplates outcome value with
            | ok replaced => simp [ih]
            | error cause => simp
          · have ht : Event.isTemplate value = true := by
              cases value <;> simp_all [Event.isTemplate]
            simp [hv, ih, ht]

theorem responseTemplates_ok_iff {event : Event} :
    (∃ templates, responseTemplates event = .ok templates) ↔
      ∃ overrides, event.responseTemplates.overrides? = some overrides ∧
        ∀ entry ∈ overrides, entry.1 ∈ Outcome.all.map Outcome.name →
          Event.isTemplate entry.2 = true := by
  simp only [responseTemplates, bind_eq_ok, responseOverrides_ok_iff]
  constructor
  · rintro ⟨templates, overrides, ho, ht⟩
    exact ⟨overrides, ho, override_ok_iff.mp ⟨templates, ht⟩⟩
  · rintro ⟨overrides, ho, hall⟩
    obtain ⟨templates, ht⟩ := override_ok_iff.mpr hall
    exact ⟨templates, overrides, ho, ht⟩

theorem requestTemplate_ok_iff {event : Event} :
    (∃ template, requestTemplate event = .ok template) ↔
      ∃ action, event.action = .known action := by
  unfold requestTemplate
  cases event.action <;> simp

theorem requestTemplates_ok_iff {event : Event} :
    (∃ templates, requestTemplates event = .ok templates) ↔
      (∃ overrides, event.requestTemplates.overrides? = some overrides) ∧
        ∃ action, event.action = .known action := by
  simp only [requestTemplates, bind_eq_ok, requestOverrides_ok_iff, pure_eq_ok,
    ← requestTemplate_ok_iff]
  exact ⟨fun ⟨_, o, ho, t, ht, _⟩ => ⟨⟨o, ho⟩, t, ht⟩,
    fun ⟨⟨o, ho⟩, t, ht⟩ => ⟨_, o, ho, t, ht, rfl⟩⟩

end Mapping

namespace Method

/-! ## Responses -/

/-- Mapping headers in the responses of the integration never fails by itself. -/
theorem addCors_ok_iff {cors : Option Cors} (templates : Mapping.ResponseTemplates) :
    (∃ responses, addCors cors (Mapping.Outcome.all.map (integrationResponse templates)) =
        .ok responses) ↔
      ∀ settings, cors = some settings → settings.Joinable := by
  cases cors with
  | none => simp [addCors]
  | some settings =>
      have hadd : ∀ headers outcome,
          ∃ response, addHeaders headers (integrationResponse templates outcome) = .ok response :=
        fun _ _ => ⟨_, rfl⟩
      simp only [addCors, bind_eq_ok, Option.some.injEq, forall_eq', ← Cors.headers_ok_iff]
      constructor
      · rintro ⟨-, headers, hh, -⟩
        exact ⟨headers, hh⟩
      · rintro ⟨headers, hh⟩
        exact ⟨_, headers, hh, rfl⟩

theorem addCors_error {cors : Option Cors} {templates : Mapping.ResponseTemplates} {fault : Fault}
    (h : addCors cors (Mapping.Outcome.all.map (integrationResponse templates)) = .error fault) :
    ∃ i kind, fault = .itemNotText i kind := by
  cases cors with
  | none => simp [addCors] at h
  | some settings =>
      simp only [addCors, bind_eq_error] at h
      rcases h with hh | ⟨headers, -, hm⟩
      · exact Cors.headers_error hh
      · cases hm

theorem declaredResponses_ok_iff {event : Event} :
    (∃ responses, declaredResponses event = .ok responses) ↔
      ∀ cors, event.cors = some cors → cors.Joinable := by
  unfold declaredResponses
  cases event.cors with
  | none => simp [pure_eq_ok]
  | some cors =>
      simp only [bind_eq_ok, pure_eq_ok, Option.some.injEq, forall_eq', ← Cors.headers_ok_iff]
      exact ⟨fun ⟨_, h, hh, _⟩ => ⟨h, hh⟩, fun ⟨h, hh⟩ => ⟨_, h, hh, rfl⟩⟩

theorem declaredResponses_error {event : Event} {fault : Fault}
    (h : declaredResponses event = .error fault) : ∃ i kind, fault = .itemNotText i kind := by
  unfold declaredResponses at h
  cases hc : event.cors with
  | none => simp [hc, pure_ne_error] at h
  | some cors =>
      simp only [hc, bind_eq_error, pure_ne_error, and_false, exists_false, or_false] at h
      exact Cors.headers_error h

end Method

/-! ## Methods -/

/-- What the builders of a method need of an event. -/
structure Event.Makeable (event : Event) : Prop where
  action : ∃ action, event.action = .known action
  request : ∃ overrides, event.requestTemplates.overrides? = some overrides
  response : ∃ overrides, event.responseTemplates.overrides? = some overrides ∧
    ∀ entry ∈ overrides, entry.1 ∈ Mapping.Outcome.all.map Mapping.Outcome.name →
      isTemplate entry.2 = true
  origins : ∀ cors, event.cors = some cors → cors.Joinable

/-- How a method shows the event that it was made from. -/
structure MethodResource.MadeFrom (api : Api) (event : Event) (method : MethodResource) : Prop where
  resourceId : method.resourceId = Route.resourceId api event.path
  restApiId : method.restApiId = api.restApiId
  auth : method.auth = event.auth
  integration : Method.integration event = .ok method.integration
  action : event.action = .known method.integration.action

namespace Method

theorem integration_eq_ok {event : Event} {made : Integration} :
    integration event = .ok made ↔
      event.action = .known made.action ∧
        Mapping.requestTemplates event = .ok made.requestTemplates ∧
        ∃ mapped, integrationResponses event = .ok mapped ∧
          addCors event.cors mapped = .ok made.responses := by
  simp only [integration, bind_eq_ok, mapError_eq_ok]
  constructor
  · rintro ⟨templates, ht, h⟩
    cases ha : event.action with
    | other value => simp [ha, throw, throwThe, MonadExceptOf.throw] at h
    | known action =>
        simp only [ha, bind_eq_ok, mapError_eq_ok, pure_eq_ok] at h
        obtain ⟨mapped, hm, responses, hr, rfl⟩ := h
        exact ⟨rfl, ht, mapped, hm, hr⟩
  · rintro ⟨ha, ht, mapped, hm, hr⟩
    refine ⟨made.requestTemplates, ht, ?_⟩
    simp only [ha, bind_eq_ok, mapError_eq_ok, pure_eq_ok]
    exact ⟨mapped, hm, made.responses, hr, rfl⟩

theorem integration_ok_iff {event : Event} :
    (∃ made, integration event = .ok made) ↔ event.Makeable := by
  constructor
  · rintro ⟨made, h⟩
    obtain ⟨ha, ht, mapped, hm, hr⟩ := integration_eq_ok.mp h
    simp only [integrationResponses, bind_eq_ok, pure_eq_ok] at hm
    obtain ⟨templates, hm, rfl⟩ := hm
    exact ⟨⟨_, ha⟩, (Mapping.requestTemplates_ok_iff.mp ⟨_, ht⟩).1,
      Mapping.responseTemplates_ok_iff.mp ⟨templates, hm⟩, (addCors_ok_iff templates).mp ⟨_, hr⟩⟩
  · rintro ⟨⟨action, ha⟩, hrequest, hresponse, horigins⟩
    obtain ⟨requests, hq⟩ := Mapping.requestTemplates_ok_iff.mpr ⟨hrequest, action, ha⟩
    obtain ⟨templates, ht⟩ := Mapping.responseTemplates_ok_iff.mpr hresponse
    obtain ⟨responses, hr⟩ := (addCors_ok_iff templates).mpr horigins
    refine ⟨⟨action, requests, responses⟩, integration_eq_ok.mpr ⟨ha, hq, _, ?_, hr⟩⟩
    simp only [integrationResponses, bind_eq_ok, pure_eq_ok]
    exact ⟨templates, ht, rfl⟩

end Method

namespace MethodResource

variable {api : Api} {event : Event}

theorem madeFrom_of_ofEvent {method : MethodResource} (h : ofEvent api event = .ok method) :
    MadeFrom api event method := by
  simp only [ofEvent, bind_eq_ok, pure_eq_ok] at h
  obtain ⟨integration, hi, responses, -, rfl⟩ := h
  exact ⟨rfl, rfl, rfl, hi, (Method.integration_eq_ok.mp hi).1⟩

theorem ofEvent_ok_iff : (∃ method, ofEvent api event = .ok method) ↔ event.Makeable := by
  simp only [ofEvent, bind_eq_ok, mapError_eq_ok, pure_eq_ok]
  constructor
  · rintro ⟨-, integration, hi, -⟩
    exact Method.integration_ok_iff.mp ⟨integration, hi⟩
  · intro h
    obtain ⟨integration, hi⟩ := Method.integration_ok_iff.mpr h
    obtain ⟨responses, hr⟩ := Method.declaredResponses_ok_iff.mpr h.origins
    exact ⟨_, integration, hi, responses, hr, rfl⟩

/-- Where all but the origins is right, a method fails with the fault of an origin that is no text.
-/
theorem ofEvent_error {failure : Failure} (h : ofEvent api event = .error failure)
    (haction : ∃ action, event.action = .known action)
    (hrequest : ∃ overrides, event.requestTemplates.overrides? = some overrides)
    (hresponse : ∃ templates, Mapping.responseTemplates event = .ok templates) :
    ∃ i kind, failure = .unexpected (.itemNotText i kind) := by
  obtain ⟨action, ha⟩ := haction
  obtain ⟨requests, hq⟩ := Mapping.requestTemplates_ok_iff.mpr ⟨hrequest, action, ha⟩
  obtain ⟨templates, ht⟩ := hresponse
  simp only [ofEvent, bind_eq_error, mapError_eq_error, pure_ne_error, and_false, exists_false,
    or_false] at h
  rcases h with hi | ⟨integration, -, fault, hd, rfl⟩
  · have hresponses : Method.integrationResponses event =
        .ok (Mapping.Outcome.all.map (Method.integrationResponse templates)) := by
      simp only [Method.integrationResponses, ht]
      rfl
    simp only [Method.integration, hq, ha, hresponses, bind_eq_error, mapError_eq_error,
      mapError_eq_ok, pure_ne_error, reduceCtorEq, Except.ok.injEq, false_and, and_false,
      exists_false, false_or, or_false, exists_eq_left'] at hi
    obtain ⟨fault, hc, rfl⟩ := hi
    obtain ⟨i, kind, rfl⟩ := Method.addCors_error hc
    exact ⟨i, kind, rfl⟩
  · obtain ⟨i, kind, rfl⟩ := Method.declaredResponses_error hd
    exact ⟨i, kind, rfl⟩

end MethodResource

end TableGateway
