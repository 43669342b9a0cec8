import TableGateway.Compile.Pass
import TableGateway.Proofs.Route.Prefixes

/-! # One step of the compilation

What adding one event can do. Either its method is made, its ID is free and its path agrees with the
map, and then the map grows at its end; or the failure says which of the three did not hold. -/

namespace TableGateway

/-- A map whose values are objects, as those of a template are. -/
def ResourceMap.Objects (resources : ResourceMap) : Prop :=
  ∀ entry ∈ resources, ∃ fields, entry.2.toJson = .obj fields

theorem objects_ownApi (name : Json) : (ResourceMap.ownApi name).Objects := by
  intro entry hm
  obtain rfl := List.mem_singleton.mp hm
  exact ⟨_, rfl⟩

namespace Compile

/-! ## Path resources that are missing -/

/-- Whether a map has nothing, or the same resource, under an ID. -/
def Agrees (resources : ResourceMap) (entry : Text × PathResource) : Prop :=
  ∀ held, held? resources entry.1 = some held → Json.Same held.toJson entry.2.toJson

def missing (resources : ResourceMap) (entries : List (Text × PathResource)) : ResourceMap :=
  (entries.filter fun entry => (held? resources entry.1).isNone).map fun entry =>
    (entry.1, .path entry.2)

theorem held?_eq_get? {resources : ResourceMap} (h : resources.Objects) (key : Text) :
    held? resources key = Entries.get? resources key := by
  unfold held?
  split
  · rename_i hg
    obtain ⟨fields, hf⟩ := h _ (Entries.mem_of_get? hg)
    simp [Resource.toJson] at hf
  · rfl

theorem missing_cons (resources : ResourceMap) (entry : Text × PathResource)
    (entries : List (Text × PathResource)) :
    missing resources (entry :: entries) =
      missing resources [entry] ++ missing resources entries := by
  unfold missing
  rw [← List.map_append, ← List.filter_append]
  rfl

theorem missingResources_cons_of_agrees {resources : ResourceMap} {event : Event}
    {entry : Text × PathResource} (rest : List (Text × PathResource))
    (h : Agrees resources entry) :
    missingResources resources event (entry :: rest) =
      (missingResources resources event rest).map (missing resources [entry] ++ ·) := by
  obtain ⟨key, needed⟩ := entry
  cases hh : held? resources key with
  | none => simp [missingResources, missing, hh]
  | some held =>
      have hs := h held hh
      simp only [missingResources, missing, hh, hs, if_true]
      cases missingResources resources event rest <;> simp [Except.map, hh]

theorem missingResources_cons_of_not_agrees {resources : ResourceMap} {event : Event}
    {entry : Text × PathResource} (rest : List (Text × PathResource))
    (h : ¬ Agrees resources entry) :
    missingResources resources event (entry :: rest) =
      .error (.pathTaken entry.1 event.path event.method) := by
  obtain ⟨key, needed⟩ := entry
  cases hh : held? resources key with
  | none => exact absurd (fun held hheld => by simp [hh] at hheld) h
  | some held =>
      have hs : ¬ Json.Same held.toJson needed.toJson := by
        intro hs
        apply h
        intro other ho
        rw [hh, Option.some.injEq] at ho
        exact ho ▸ hs
      simp [missingResources, hh, hs]

/-- Either all entries agree with the map and the missing ones are returned, or the failure names
the first entry that does not agree. -/
theorem missingResources_cases (resources : ResourceMap) (event : Event)
    (entries : List (Text × PathResource)) :
    ((∀ entry ∈ entries, Agrees resources entry) ∧
      missingResources resources event entries = .ok (missing resources entries)) ∨
    ∃ before entry after, entries = before ++ entry :: after ∧
      (∀ e ∈ before, Agrees resources e) ∧ ¬ Agrees resources entry ∧
      missingResources resources event entries =
        .error (.pathTaken entry.1 event.path event.method) := by
  induction entries with
  | nil => exact Or.inl ⟨by simp, rfl⟩
  | cons entry rest ih =>
      by_cases ha : Agrees resources entry
      · rw [missingResources_cons_of_agrees rest ha]
        rcases ih with ⟨hall, hr⟩ | ⟨before, found, after, rfl, hb, hf, hr⟩
        · refine Or.inl ⟨by simpa [ha] using hall, ?_⟩
          rw [hr, missing_cons resources entry rest]
          rfl
        · refine Or.inr ⟨entry :: before, found, after, rfl, by simpa [ha] using hb, hf, ?_⟩
          rw [hr]
          rfl
      · exact Or.inr ⟨[], entry, rest, rfl, by simp, ha, missingResources_cons_of_not_agrees rest ha⟩

/-! ## What an event adds -/

/-- An event can be added to a map with a method: the method is made from it, the ID of the method
is free, and the resources of its path agree with the map. -/
structure Addable (api : Api) (resources : ResourceMap) (event : Event)
    (method : MethodResource) : Prop where
  made : MethodResource.ofEvent api event = .ok method
  free : event.methodLogicalId ∉ Entries.keys resources
  agrees : ∀ entry ∈ Route.resources api event.path, Agrees resources entry

/-- The entries that an event brings to a map. -/
def brought (api : Api) (resources : ResourceMap) (event : Event) (method : MethodResource) :
    ResourceMap :=
  missing resources (Route.resources api event.path) ++ [(event.methodLogicalId, .method method)]

/-- Why an event cannot be added: its method fails, or one of its IDs is taken. -/
inductive Rejected (api : Api) (resources : ResourceMap) (event : Event) : Failure → Prop where
  | method {failure : Failure} (h : MethodResource.ofEvent api event = .error failure) :
      Rejected api resources event failure
  | methodTaken {method : MethodResource} (h : MethodResource.ofEvent api event = .ok method)
      (hk : event.methodLogicalId ∈ Entries.keys resources) :
      Rejected api resources event
        (.rejected (.methodTaken event.methodLogicalId event.path event.method))
  | pathTaken {method : MethodResource} (h : MethodResource.ofEvent api event = .ok method)
      (hk : event.methodLogicalId ∉ Entries.keys resources)
      {before after : List (Text × PathResource)} {entry : Text × PathResource}
      (he : Route.resources api event.path = before ++ entry :: after)
      (hb : ∀ e ∈ before, Agrees resources e) (ha : ¬ Agrees resources entry) :
      Rejected api resources event (.rejected (.pathTaken entry.1 event.path event.method))

/-- An event is rejected because its method fails or because an ID is taken. -/
theorem Rejected.notMade_or_taken {api : Api} {resources : ResourceMap} {event : Event}
    {failure : Failure} (h : Rejected api resources event failure) :
    MethodResource.ofEvent api event = .error failure ∨
      (∃ method, MethodResource.ofEvent api event = .ok method) ∧
        failure.report.code = "LOGICAL_ID_COLLISION" := by
  cases h with
  | method he => exact Or.inl he
  | methodTaken hm _ => exact Or.inr ⟨⟨_, hm⟩, rfl⟩
  | pathTaken hm _ _ _ _ => exact Or.inr ⟨⟨_, hm⟩, rfl⟩

/-- Where the ID of a method is taken, nothing else is looked at. -/
theorem additions_of_methodTaken {api : Api} {resources : ResourceMap} {event : Event}
    {method : MethodResource} (hm : MethodResource.ofEvent api event = .ok method)
    (hk : event.methodLogicalId ∈ Entries.keys resources) :
    additions api resources event =
      .error (.rejected (.methodTaken event.methodLogicalId event.path event.method)) := by
  simp [additions, hm, hk, bind, Except.bind, throw, throwThe, MonadExceptOf.throw]

/-- Adding an event brings its entries, or it fails for one of the three reasons. -/
theorem additions_cases (api : Api) (resources : ResourceMap) (event : Event) :
    (∃ method, Addable api resources event method ∧
      additions api resources event = .ok (brought api resources event method)) ∨
    ∃ failure, Rejected api resources event failure ∧
      additions api resources event = .error failure := by
  cases hm : MethodResource.ofEvent api event with
  | error failure => exact Or.inr ⟨failure, .method hm, by simp [additions, hm, bind, Except.bind]⟩
  | ok method =>
      by_cases hk : event.methodLogicalId ∈ Entries.keys resources
      · exact Or.inr ⟨_, .methodTaken hm hk, additions_of_methodTaken hm hk⟩
      · rcases missingResources_cases resources event (Route.resources api event.path) with
          ⟨hall, hp⟩ | ⟨before, entry, after, he, hb, ha, hp⟩
        · refine Or.inl ⟨method, ⟨hm, hk, hall⟩, ?_⟩
          simp [additions, pathResources, hm, hk, hp, bind, Except.bind, Except.mapError, pure,
            Except.pure, brought]
        · refine Or.inr ⟨_, .pathTaken hm hk he hb ha, ?_⟩
          simp [additions, pathResources, hm, hk, hp, bind, Except.bind, Except.mapError]

/-! ## What a step does to the result -/

/-- The result after an event was added. -/
def withEvent (result : Result) (index : Int) (event : Event) (more : ResourceMap) : Result :=
  { result with
    resources := Entries.merge result.resources more
    compiled := result.compiled ++ [⟨event.methodLogicalId, event⟩]
    warnings := result.warnings ++ warningsOf index event }

/-- The result after an event was skipped. -/
def withSkipped (result : Result) (index : Int) (event : Event) (failure : Failure) : Result :=
  { result with
    errors := result.errors ++ [⟨index, failure⟩]
    warnings := result.warnings ++ warningsOf index event }

theorem addEvent_outcome (api : Api) (strict : Bool) (result : Result) (index : Int)
    (event : Event) :
    (addEvent api strict result index event).outcome =
      match additions api result.resources event with
      | .ok more => .ok (withEvent result index event more)
      | .error failure =>
          if strict then .error failure else .ok (withSkipped result index event failure) := by
  unfold addEvent
  cases additions api result.resources event with
  | ok more => rfl
  | error failure => cases strict <;> rfl

/-- A step that returns a result has added the event or, when it is not strict, skipped it. -/
theorem addEvent_cases {api : Api} {strict : Bool} {result next : Result} {index : Int}
    {event : Event} (h : (addEvent api strict result index event).outcome = .ok next) :
    (∃ method, Addable api result.resources event method ∧
      next = withEvent result index event (brought api result.resources event method)) ∨
    ∃ failure, Rejected api result.resources event failure ∧
      next = withSkipped result index event failure := by
  rw [addEvent_outcome] at h
  rcases additions_cases api result.resources event with ⟨method, ha, he⟩ | ⟨failure, hr, he⟩
  · rw [he] at h
    exact Or.inl ⟨method, ha, (Except.ok.inj h).symm⟩
  · rw [he] at h
    cases strict with
    | true => simp at h
    | false => exact Or.inr ⟨failure, hr, (Except.ok.inj h).symm⟩

/-! ## Maps that grow -/

theorem mem_missing {resources : ResourceMap} {entries : List (Text × PathResource)} {key : Text}
    {value : Resource} :
    (key, value) ∈ missing resources entries ↔
      held? resources key = none ∧
        ∃ resource, (key, resource) ∈ entries ∧ value = .path resource := by
  simp only [missing, List.mem_map, List.mem_filter, Option.isNone_iff_eq_none, Prod.mk.injEq]
  constructor
  · rintro ⟨entry, ⟨hm, hh⟩, rfl, rfl⟩
    exact ⟨hh, entry.2, hm, rfl⟩
  · rintro ⟨hh, resource, hm, rfl⟩
    exact ⟨(key, resource), ⟨hm, hh⟩, rfl, rfl⟩

theorem keys_missing_sublist (resources : ResourceMap) (entries : List (Text × PathResource)) :
    (Entries.keys (missing resources entries)).Sublist (Entries.keys entries) := by
  unfold missing Entries.keys
  rw [List.map_map]
  exact List.Sublist.map Prod.fst List.filter_sublist

theorem nodup_keys_brought (api : Api) (resources : ResourceMap) (event : Event)
    (method : MethodResource) : (Entries.keys (brought api resources event method)).Nodup := by
  have hs := keys_missing_sublist resources (Route.resources api event.path)
  have hn := hs.nodup (Route.nodup_keys_resources api event.path)
  have hm : event.methodLogicalId ∉
      Entries.keys (missing resources (Route.resources api event.path)) := by
    intro hm
    exact Route.methodLogicalId_not_mem_keys api event.path _ _ (hs.subset hm)
  simpa [brought] using hn.concat hm

/-- What an event brings to a map of objects is new to it, so the map grows at its end. -/
theorem merge_brought {api : Api} {resources : ResourceMap} {event : Event}
    {method : MethodResource} (ho : resources.Objects)
    (h : Addable api resources event method) :
    Entries.merge resources (brought api resources event method) =
      resources ++ brought api resources event method := by
  apply Entries.merge_eq_append (nodup_keys_brought api resources event method)
  intro key hk
  rw [brought, Entries.keys_append, List.mem_append] at hk
  rcases hk with hk | hk
  · obtain ⟨value, hv⟩ := Entries.exists_get?_of_mem_keys hk
    have hn := (mem_missing.mp (Entries.mem_of_get? hv)).1
    rw [held?_eq_get? ho] at hn
    exact Entries.get?_eq_none_iff.mp hn
  · obtain rfl : key = event.methodLogicalId := by simpa [Entries.keys] using hk
    exact h.free

theorem objects_brought {api : Api} {resources : ResourceMap} (event : Event)
    (method : MethodResource) (h : resources.Objects) :
    ResourceMap.Objects (resources ++ brought api resources event method) := by
  rintro ⟨key, value⟩ hm
  rw [List.mem_append, brought, List.mem_append] at hm
  rcases hm with hm | hm | hm
  · exact h _ hm
  · obtain ⟨-, resource, -, rfl⟩ := mem_missing.mp hm
    exact ⟨_, rfl⟩
  · simp only [List.mem_singleton, Prod.mk.injEq] at hm
    rw [hm.2]
    exact ⟨_, rfl⟩

end Compile

end TableGateway
