import TableGateway.Proofs.Compile.Verdicts

/-! # Compiling the same events again

A pass only adds to the map, and what keeps an event out of a map keeps it out of every map that
grew from it. On top of their own map all events are refused, each for the reason it was refused for
or because its own method is there. -/

namespace TableGateway.Compile

/-! ## Maps that grow -/

/-- A map that grew from another one has all of its keys, and under an ID that was held there the
same resource. -/
structure Grows (before after : ResourceMap) : Prop where
  keys : ∀ key ∈ Entries.keys before, key ∈ Entries.keys after
  held : ∀ key value, held? before key = some value → held? after key = some value

theorem Grows.refl (resources : ResourceMap) : Grows resources resources :=
  ⟨fun _ h => h, fun _ _ h => h⟩

theorem Grows.trans {a b c : ResourceMap} (h : Grows a b) (k : Grows b c) : Grows a c :=
  ⟨fun key hk => k.keys key (h.keys key hk),
    fun key value hv => k.held key value (h.held key value hv)⟩

/-- An entry that agrees with a map agreed with those it grew from. -/
theorem Grows.agrees {before after : ResourceMap} (h : Grows before after)
    {entry : Text × PathResource} (ha : Agrees after entry) : Agrees before entry :=
  fun held hh => ha held (h.held _ held hh)

theorem mem_keys_of_held? {resources : ResourceMap} {key : Text} {value : Resource}
    (h : held? resources key = some value) : key ∈ Entries.keys resources := by
  by_contra hk
  simp [held?, Entries.get?_eq_none_iff.mpr hk] at h

/-- What an event brings stands beside everything that is held already. -/
theorem grows_merge_brought {api : Api} {resources : ResourceMap} {event : Event}
    {method : MethodResource} (ha : Addable api resources event method) :
    Grows resources (Entries.merge resources (brought api resources event method)) := by
  refine ⟨fun key hk => Entries.mem_keys_merge.mpr (Or.inl hk), ?_⟩
  intro key value hv
  have hnew : key ∉ Entries.keys (brought api resources event method) := by
    intro hk
    rw [brought, Entries.keys_append, List.mem_append] at hk
    rcases hk with hk | hk
    · obtain ⟨found, hf⟩ := Entries.exists_get?_of_mem_keys hk
      rw [(mem_missing.mp (Entries.mem_of_get? hf)).1] at hv
      cases hv
    · obtain rfl : key = event.methodLogicalId := by simpa [Entries.keys] using hk
      exact ha.free (mem_keys_of_held? hv)
  have hsame : Entries.get? (Entries.merge resources (brought api resources event method)) key =
      Entries.get? resources key := Entries.get?_merge_of_not_mem hnew
  unfold held? at hv ⊢
  rwa [hsame]

theorem grows_settle (api : Api) (result : Result) (index : Int) (event : Event) :
    Grows result.resources (settle api result index event).resources := by
  rcases additions_cases api result.resources event with ⟨method, ha, he⟩ | ⟨failure, -, he⟩
  · rw [settle_of_ok he]
    exact grows_merge_brought ha
  · rw [settle_of_error he]
    exact .refl _

theorem grows_settleAll (api : Api) (result : Result) (index : Int) (events : List Event) :
    Grows result.resources (settleAll api result index events).resources := by
  induction events generalizing result index with
  | nil => exact .refl _
  | cons event rest ih => exact (grows_settle api result index event).trans (ih _ _)

/-! ## Refusals that last -/

/-- An event that is rejected from a map is rejected with the same code from all that grow from it.
The reason may move from a path that is taken to the method that is taken by then. -/
theorem Rejected.lasts {api : Api} {before after : ResourceMap} {event : Event} {failure : Failure}
    (h : Rejected api before event failure) (hg : Grows before after) :
    ∃ later, additions api after event = .error later ∧
      later.report.code = failure.report.code := by
  rcases additions_cases api after event with ⟨method, ha, -⟩ | ⟨later, hl, he⟩
  · exfalso
    cases h with
    | method hm => cases hm.symm.trans ha.made
    | methodTaken _ hk => exact ha.free (hg.keys _ hk)
    | pathTaken _ _ hpath _ hn => exact hn (hg.agrees (ha.agrees _ (by simp [hpath])))
  · refine ⟨later, he, ?_⟩
    rcases h.notMade_or_taken with hm | ⟨⟨method, hm⟩, hcode⟩
    · rcases hl.notMade_or_taken with hm' | ⟨⟨method, hm'⟩, -⟩
      · rw [Except.error.inj (hm'.symm.trans hm)]
      · cases hm.symm.trans hm'
    · rcases hl.notMade_or_taken with hm' | ⟨-, hcode'⟩
      · cases hm.symm.trans hm'
      · rw [hcode', hcode]

/-- How a second failure on an event repeats the first verdict on it: the method that was compiled
is taken, and the code of a failure stays. -/
inductive Repeats (event : Event) : Option Failure → Failure → Prop where
  | compiled :
      Repeats event none (.rejected (.methodTaken event.methodLogicalId event.path event.method))
  | skipped {failure later : Failure} (hcode : later.report.code = failure.report.code) :
      Repeats event (some failure) later

/-- All events of a pass are refused by the maps that grow from that of its result. -/
theorem forall₂_refused (api : Api) (result : Result) (index : Int) (events : List Event)
    {after : ResourceMap} (hg : Grows (settleAll api result index events).resources after) :
    List.Forall₂
      (fun event verdict => ∃ later, additions api after event = .error later ∧
        Repeats event verdict later)
      events (verdicts api result.resources events) := by
  induction events generalizing result index with
  | nil => exact .nil
  | cons event rest ih =>
      rcases additions_cases api result.resources event with ⟨method, ha, he⟩ | ⟨failure, hr, he⟩
      · rw [settleAll, settle_of_ok he] at hg
        rw [verdicts_cons_of_ok api rest he]
        refine .cons ⟨_, additions_of_methodTaken ha.made ?_, .compiled⟩ (ih _ _ hg)
        apply hg.keys
        apply (grows_settleAll api _ (index + 1) rest).keys
        exact Entries.mem_keys_merge.mpr (Or.inr (by simp [brought, Entries.keys]))
      · rw [settleAll, settle_of_error he] at hg
        rw [verdicts_cons_of_error api rest he]
        have hgrow := (grows_settleAll api (withSkipped result index event failure) (index + 1)
          rest).trans hg
        obtain ⟨later, hl, hcode⟩ := hr.lasts hgrow
        exact .cons ⟨later, hl, .skipped hcode⟩ (ih (withSkipped result index event failure) _ hg)

/-! ## A pass that adds nothing -/

/-- A pass whose events are all refused by the map it starts from leaves everything as it is but for
one error on each event. -/
theorem settleAll_of_refused {api : Api} {P : Event × Nat → Failure → Prop} (result : Result)
    (start : Nat) (events : List Event)
    (h : ∀ indexed ∈ events.zipIdx start, ∃ failure,
      additions api result.resources indexed.1 = .error failure ∧ P indexed failure) :
    (settleAll api result start events).resources = result.resources ∧
      (settleAll api result start events).compiled = result.compiled ∧
      ∃ refused, (settleAll api result start events).errors = result.errors ++ refused ∧
        List.Forall₂ (fun indexed skipped =>
          skipped.index = (indexed.2 : Int) ∧ P indexed skipped.failure)
          (events.zipIdx start) refused := by
  induction events generalizing result start with
  | nil => exact ⟨rfl, rfl, [], by simp [settleAll], .nil⟩
  | cons event rest ih =>
      rw [List.zipIdx_cons, List.forall_mem_cons] at h
      obtain ⟨⟨failure, he, hP⟩, hrest⟩ := h
      obtain ⟨hresources, hcompiled, refused, herrors, hrefused⟩ :=
        ih (withSkipped result start event failure) (start + 1) hrest
      rw [settleAll, settle_of_error he]
      refine ⟨hresources, hcompiled, ⟨start, failure⟩ :: refused, ?_, ?_⟩
      · rw [Int.natCast_succ] at herrors
        rw [herrors]
        simp [withSkipped]
      · rw [List.zipIdx_cons]
        exact .cons ⟨rfl, hP⟩ hrefused

/-- What the second error on an event says: an event that was compiled has its own method in its
way, and one that was skipped is refused with the code that it was skipped with. -/
structure RefusedAgain (first : Result) (index : Int) (event : Event) (refused : Skipped) :
    Prop where
  position : refused.toJson.field "index" = .int index
  compiled : (∀ skipped ∈ first.errors, skipped.index ≠ index) →
    ⟨event.methodLogicalId, event⟩ ∈ first.compiled ∧
      refused.toJson.field "errorCode" = .str "LOGICAL_ID_COLLISION" ∧
      refused.toJson.field "logicalId" = .str event.methodLogicalId
  skipped : ∀ skipped ∈ first.errors, skipped.index = index →
    refused.toJson.field "errorCode" = skipped.toJson.field "errorCode"

theorem refusedAgain_of_repeats {api : Api} {given : ResourceMap} {events : List Event}
    {indexed : Event × Nat} (hin : indexed ∈ events.zipIdx) {refused : Skipped}
    (hi : refused.index = indexed.2)
    (h : Repeats indexed.1
      ((settleAll api { resources := given } 0 events).failureAt? indexed.2) refused.failure) :
    RefusedAgain (settleAll api { resources := given } 0 events) indexed.2 indexed.1 refused := by
  refine ⟨hi ▸ refused.field_index, ?_, ?_⟩
  · intro hn
    have hnone := Result.failureAt?_eq_none_iff.mpr hn
    have hc := mem_compiled_of_failureAt?_eq_none api given events hin hnone
    rw [hnone] at h
    obtain ⟨other, failure⟩ := refused
    cases h with
    | compiled => exact ⟨hc, Skipped.field_code _, (EventError.clear _).field_detail _ rfl⟩
  · rintro skipped hm hindex
    rw [← hindex, failureAt?_of_mem api given events hm] at h
    rw [refused.field_code, skipped.field_code]
    cases h with
    | skipped hcode => rw [hcode]

/-- Compiling the same events again, on top of the map of the first pass, adds nothing: the map
stays the same in the same order, no method is compiled, and each event has one error, at its place.
-/
theorem compile_over_itself (api : Api) (events : List Event) (given : ResourceMap) :
    ∃ first again, (compile api false events given).outcome = .ok first ∧
      (compile api false events first.resources).outcome = .ok again ∧
      again.resources = first.resources ∧ again.compiled = [] ∧
      List.Forall₂ (fun indexed refused => RefusedAgain first indexed.2 indexed.1 refused)
        events.zipIdx again.errors := by
  let first := settleAll api { resources := given } 0 events
  have hall : ∀ indexed ∈ events.zipIdx, ∃ failure,
      additions api first.resources indexed.1 = .error failure ∧
        indexed ∈ events.zipIdx ∧ Repeats indexed.1 (first.failureAt? indexed.2) failure := by
    intro indexed hin
    obtain ⟨failure, hf, hr⟩ := forall_zipIdx_of_verdicts
      (forall₂_refused api { resources := given } 0 events (.refl _)) indexed hin
    exact ⟨failure, hf, hin, hr⟩
  obtain ⟨hresources, hcompiled, refused, herrors, hrefused⟩ :=
    settleAll_of_refused { resources := first.resources } 0 events hall
  refine ⟨first, _, compile_lenient api events given, compile_lenient api events first.resources,
    hresources, hcompiled, ?_⟩
  rw [Int.natCast_zero] at herrors
  rw [herrors, List.nil_append]
  exact hrefused.imp fun indexed skipped h => refusedAgain_of_repeats h.2.1 h.1 h.2.2

end TableGateway.Compile
