import TableGateway.Proofs.Compile.Selection

/-! # What a pass makes of each event

Whether an event is added depends on the map alone, so a pass comes to one verdict after another.
The lists of its result are read off the verdicts, and the verdicts off the list of errors. -/

namespace TableGateway.Compile

/-- The verdicts of a pass, one on each event: nothing on an event that is added, and the failure of
one that is skipped. -/
def verdicts (api : Api) (resources : ResourceMap) : List Event → List (Option Failure)
  | [] => []
  | event :: rest =>
      match additions api resources event with
      | .ok more => none :: verdicts api (Entries.merge resources more) rest
      | .error failure => some failure :: verdicts api resources rest

/-- The failure that a result reports on the event at a position. -/
def Result.failureAt? (result : Result) (index : Int) : Option Failure :=
  (result.errors.find? (·.index = index)).map (·.failure)

section Pass

variable (api : Api) (result : Result) (index : Int) (events : List Event)

theorem verdicts_cons_of_ok {resources more : ResourceMap} {event : Event}
    (h : additions api resources event = .ok more) :
    verdicts api resources (event :: events) =
      none :: verdicts api (Entries.merge resources more) events := by
  rw [verdicts, h]

theorem verdicts_cons_of_error {resources : ResourceMap} {event : Event} {failure : Failure}
    (h : additions api resources event = .error failure) :
    verdicts api resources (event :: events) = some failure :: verdicts api resources events := by
  rw [verdicts, h]

theorem length_verdicts (resources : ResourceMap) :
    (verdicts api resources events).length = events.length := by
  induction events generalizing resources with
  | nil => rfl
  | cons event rest ih =>
      cases ha : additions api resources event with
      | ok more => rw [verdicts_cons_of_ok api rest ha, List.length_cons, ih, List.length_cons]
      | error failure =>
          rw [verdicts_cons_of_error api rest ha, List.length_cons, ih, List.length_cons]

/-! ## The lists of a result -/

theorem errors_settleAll_eq :
    (settleAll api result index events).errors =
      result.errors ++ refusals index (verdicts api result.resources events) := by
  induction events generalizing result index with
  | nil => simp [settleAll, verdicts, refusals]
  | cons event rest ih =>
      cases ha : additions api result.resources event with
      | ok more =>
          rw [settleAll, settle_of_ok ha, ih, verdicts_cons_of_ok api rest ha]
          rfl
      | error failure =>
          rw [settleAll, settle_of_error ha, ih, verdicts_cons_of_error api rest ha]
          simp [refusals, withSkipped]

/-- The warnings of a pass are those of its events, whatever becomes of them. -/
theorem warnings_settleAll (start : Nat) :
    (settleAll api result start events).warnings =
      result.warnings ++ (events.zipIdx start).flatMap fun indexed =>
        warningsOf indexed.2 indexed.1 := by
  induction events generalizing result start with
  | nil => simp [settleAll]
  | cons event rest ih =>
      have hstep : (settle api result start event).warnings =
          result.warnings ++ warningsOf start event := by
        unfold settle
        cases additions api result.resources event <;> rfl
      have hnext : (start : Int) + 1 = ((start + 1 : Nat) : Int) := rfl
      rw [settleAll, hnext, ih, hstep, List.zipIdx_cons, List.flatMap_cons, List.append_assoc]

end Pass

/-- An event with nothing against it is compiled. -/
theorem forall₂_compiled (api : Api) (result : Result) (index : Int) (events : List Event) :
    List.Forall₂
      (fun event verdict => verdict = none → ⟨event.methodLogicalId, event⟩ ∈
        (settleAll api result index events).compiled)
      events (verdicts api result.resources events) := by
  induction events generalizing result index with
  | nil => exact .nil
  | cons event rest ih =>
      cases ha : additions api result.resources event with
      | ok more =>
          rw [settleAll, settle_of_ok ha, verdicts_cons_of_ok api rest ha]
          refine .cons (fun _ => ?_) (ih _ _)
          apply (compiled_prefix_settleAll api _ (index + 1) rest).subset
          simp [withEvent]
      | error failure =>
          rw [settleAll, settle_of_error ha, verdicts_cons_of_error api rest ha]
          refine .cons (fun hn => ?_) (ih (withSkipped result index event failure) _)
          cases hn

/-! ## Verdicts and errors -/

/-- A failure is reported at the position of its verdict. -/
theorem exists_verdict_of_mem_refusals {index : Int} {verdicts : List (Option Failure)}
    {skipped : Skipped} (h : skipped ∈ refusals index verdicts) :
    ∃ i : Nat, skipped.index = index + i ∧ verdicts[i]? = some (some skipped.failure) := by
  induction verdicts generalizing index with
  | nil => cases h
  | cons verdict rest ih =>
      -- The positions of the rest are counted from the next one.
      have hrest : skipped ∈ refusals (index + 1) rest →
          ∃ i : Nat, skipped.index = index + i ∧
            (verdict :: rest)[i]? = some (some skipped.failure) := by
        intro hm
        obtain ⟨i, hi, hv⟩ := ih hm
        exact ⟨i + 1, by omega, hv⟩
      cases verdict with
      | none => exact hrest h
      | some failure =>
          rcases List.mem_cons.mp h with rfl | hm
          · exact ⟨0, by simp, rfl⟩
          · exact hrest hm

/-- A position is reported with the failure of its verdict, and not at all without one. -/
theorem find?_refusals (index : Int) (verdicts : List (Option Failure)) (i : Nat) :
    ((refusals index verdicts).find? fun skipped => skipped.index = index + i).map (·.failure) =
      verdicts[i]?.join := by
  induction verdicts generalizing index i with
  | nil => rfl
  | cons verdict rest ih =>
      cases i with
      | zero =>
          cases verdict with
          | none =>
              -- The other verdicts are about later positions.
              have hlater : ∀ skipped ∈ refusals (index + 1) rest, ¬ skipped.index = index := by
                intro skipped hm
                obtain ⟨i, hi, -⟩ := exists_verdict_of_mem_refusals hm
                omega
              simpa [refusals] using hlater
          | some failure => simp [refusals]
      | succ i =>
          have hshift : index + ((i + 1 : Nat) : Int) = index + 1 + (i : Int) := by omega
          rw [hshift, List.getElem?_cons_succ, ← ih]
          cases verdict with
          | none => rfl
          | some failure =>
              have hne : ¬ index = index + 1 + (i : Int) := by omega
              simp [refusals, hne]

section Result

variable (api : Api) (given : ResourceMap) (events : List Event)

/-- A result reports on a position what the verdict there is. -/
theorem failureAt?_settleAll (i : Nat) :
    (settleAll api { resources := given } 0 events).failureAt? i =
      (verdicts api given events)[i]?.join := by
  have hreport := find?_refusals 0 (verdicts api given events) i
  rw [Int.zero_add] at hreport
  rw [Result.failureAt?, errors_settleAll_eq, List.nil_append]
  exact hreport

/-- The verdicts of a pass are what its result reports on the positions of the events. -/
theorem verdicts_eq_map :
    verdicts api given events =
      events.zipIdx.map fun indexed =>
        (settleAll api { resources := given } 0 events).failureAt? indexed.2 := by
  apply List.ext_getElem?
  intro i
  rw [List.getElem?_map, List.getElem?_zipIdx]
  cases he : events[i]? with
  | none =>
      have hlen : (verdicts api given events).length ≤ i := by
        rw [length_verdicts]
        exact List.getElem?_eq_none_iff.mp he
      rw [List.getElem?_eq_none hlen]
      rfl
  | some event =>
      have hlt : i < (verdicts api given events).length := by
        rw [length_verdicts]
        exact (List.getElem?_eq_some_iff.mp he).1
      rw [Option.map_some, Option.map_some, Nat.zero_add, failureAt?_settleAll,
        List.getElem?_eq_getElem hlt]
      rfl

variable {api given events} in
/-- What holds of each event and its verdict holds of it and what is reported on its position. -/
theorem forall_zipIdx_of_verdicts {P : Event → Option Failure → Prop}
    (h : List.Forall₂ P events (verdicts api given events)) :
    ∀ indexed ∈ events.zipIdx, P indexed.1
      ((settleAll api { resources := given } 0 events).failureAt? indexed.2) := by
  rw [verdicts_eq_map] at h
  have hzip : List.Forall₂ P (events.zipIdx.map Prod.fst)
      (events.zipIdx.map fun indexed =>
        (settleAll api { resources := given } 0 events).failureAt? indexed.2) := by
    rw [List.zipIdx_map_fst]
    exact h
  rwa [List.forall₂_map_left_iff, List.forall₂_map_right_iff, List.forall₂_same] at hzip

/-- An event on whose position nothing is reported is compiled. -/
theorem mem_compiled_of_failureAt?_eq_none {indexed : Event × Nat}
    (h : indexed ∈ events.zipIdx)
    (hn : (settleAll api { resources := given } 0 events).failureAt? indexed.2 = none) :
    ⟨indexed.1.methodLogicalId, indexed.1⟩ ∈
      (settleAll api { resources := given } 0 events).compiled :=
  forall_zipIdx_of_verdicts (forall₂_compiled api { resources := given } 0 events) indexed h hn

/-- No position has two errors. -/
theorem failureAt?_of_mem {skipped : Skipped}
    (h : skipped ∈ (settleAll api { resources := given } 0 events).errors) :
    (settleAll api { resources := given } 0 events).failureAt? skipped.index =
      some skipped.failure := by
  rw [errors_settleAll_eq, List.nil_append] at h
  obtain ⟨i, hi, hv⟩ := exists_verdict_of_mem_refusals h
  rw [hi, Int.zero_add, failureAt?_settleAll, hv]
  rfl

end Result

namespace Result

variable {result : Result} {index : Int}

theorem failureAt?_eq_none_iff :
    result.failureAt? index = none ↔ ∀ skipped ∈ result.errors, skipped.index ≠ index := by
  simp [failureAt?]

theorem mem_errors_of_failureAt? {failure : Failure} (h : result.failureAt? index = some failure) :
    ⟨index, failure⟩ ∈ result.errors := by
  obtain ⟨skipped, hf, rfl⟩ := Option.map_eq_some_iff.mp h
  have hindex : skipped.index = index := by simpa using List.find?_some hf
  rw [← hindex]
  exact List.mem_of_find?_eq_some hf

end Result

end TableGateway.Compile
