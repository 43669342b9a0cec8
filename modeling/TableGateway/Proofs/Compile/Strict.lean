import TableGateway.Log.Logger
import TableGateway.Proofs.Compile.Records

/-! # Strict passes

A strict pass does what one that is not strict does, up to the first event that fails. There it ends
with the failure that the other one reports, before the error is logged. -/

namespace TableGateway.Compile

theorem level_of_mem_warningRecords {index : Int} {event : Event} {record : Log.Record}
    (h : record ∈ warningRecords index event) : record.level = .warning := by
  obtain ⟨warning, -, rfl⟩ := List.mem_map.mp h
  rfl

/-- How a strict pass ends with the event at a position: all events before it are added, the event
fails, and where the strict pass stops the other one goes on by logging and reporting the failure.
-/
structure StopsAt (api : Api) (result : Result) (index : Int) (events : List Event)
    (position : Nat) (failure : Failure) : Prop where
  before : (settleAll api result index (events.take position)).errors = result.errors
  failed : ∃ event, events[position]? = some event ∧
    additions api (settleAll api result index (events.take position)).resources event =
      .error failure
  raised : (addEvents api true result index events).outcome = .error failure
  reported : ∃ others, (settleAll api result index events).errors =
    result.errors ++ ⟨index + position, failure⟩ :: others
  logged : ∃ after, (addEvents api false result index events).records =
    (addEvents api true result index events).records ++
      skippedRecord ⟨index + position, failure⟩ :: after
  silent : ∀ record ∈ (addEvents api true result index events).records, record.level ≠ .error

section Step

variable {api : Api} {result : Result} {event : Event} (index : Int) (rest : List Event)

theorem stopsAt_zero {failure : Failure}
    (h : additions api result.resources event = .error failure) :
    StopsAt api result index (event :: rest) 0 failure where
  before := rfl
  failed := ⟨event, rfl, h⟩
  raised := by rw [addEvents_strict_cons_of_error index rest h]
  reported := by
    obtain ⟨others, ho⟩ :=
      errors_prefix_settleAll api (withSkipped result index event failure) (index + 1) rest
    refine ⟨others, ?_⟩
    rw [settleAll, settle_of_error h, ← ho]
    simp [withSkipped]
  logged := by
    refine ⟨(addEvents api false (withSkipped result index event failure) (index + 1)
      rest).records, ?_⟩
    rw [addEvents_cons_of_error index rest h, addEvents_strict_cons_of_error index rest h]
    simp [narration]
  silent := by
    intro record hm
    rw [addEvents_strict_cons_of_error index rest h] at hm
    rw [level_of_mem_warningRecords hm]
    decide

theorem StopsAt.cons {more : ResourceMap} (ha : additions api result.resources event = .ok more)
    {position : Nat} {failure : Failure}
    (h : StopsAt api (withEvent result index event more) (index + 1) rest position failure) :
    StopsAt api result index (event :: rest) (position + 1) failure := by
  have hshift : index + 1 + (position : Int) = index + ((position + 1 : Nat) : Int) := by omega
  obtain ⟨hbefore, hfailed, hraised, hreported, hlogged, hsilent⟩ := h
  rw [hshift] at hreported hlogged
  refine ⟨?_, ?_, ?_, ?_, ?_, ?_⟩
  · rw [List.take_succ_cons, settleAll, settle_of_ok ha, hbefore]
    rfl
  · rw [List.take_succ_cons, settleAll, settle_of_ok ha, List.getElem?_cons_succ]
    exact hfailed
  · rw [addEvents_cons_of_ok index rest true ha, hraised]
  · rw [settleAll, settle_of_ok ha]
    exact hreported
  · obtain ⟨after, hafter⟩ := hlogged
    rw [addEvents_cons_of_ok index rest false ha, addEvents_cons_of_ok index rest true ha, hafter]
    exact ⟨after, by rw [List.append_assoc]⟩
  · intro record hm
    rw [addEvents_cons_of_ok index rest true ha, List.mem_append] at hm
    rcases hm with hm | hm
    · rcases List.mem_append.mp hm with hm | hm
      · rw [level_of_mem_warningRecords hm]
        decide
      · rw [List.mem_singleton.mp hm]
        simp [compiledRecord]
    · exact hsilent record hm

end Step

/-- Either no event fails, and a strict pass is the same as one that is not, or it stops at the
first event that fails. -/
theorem strict_cases (api : Api) (result : Result) (index : Int) (events : List Event) :
    ((settleAll api result index events).errors = result.errors ∧
      addEvents api true result index events = addEvents api false result index events) ∨
    ∃ position failure, StopsAt api result index events position failure := by
  induction events generalizing result index with
  | nil => exact Or.inl ⟨rfl, rfl⟩
  | cons event rest ih =>
      cases ha : additions api result.resources event with
      | error failure => exact Or.inr ⟨0, failure, stopsAt_zero index rest ha⟩
      | ok more =>
          rcases ih (withEvent result index event more) (index + 1) with
            ⟨herrors, hsame⟩ | ⟨position, failure, hstop⟩
          · refine Or.inl ⟨?_, ?_⟩
            · rw [settleAll, settle_of_ok ha, herrors]
              rfl
            · rw [addEvents_cons_of_ok index rest true ha, addEvents_cons_of_ok index rest false ha,
                hsame]
          · exact Or.inr ⟨position + 1, failure, hstop.cons index rest ha⟩

/-- How a strict compilation ends with the event at a position of the list: those before it are
compiled without an error, its failure is the first one that a compilation without strictness
reports, and the lines printed so far are all those that the other one prints before the line of
that error, whatever logger they go to. -/
structure FailsAt (api : Api) (given : ResourceMap) (events : List Event) (first : Skipped) :
    Prop where
  position : ∃ (i : Nat) (event : Event), first.index = i ∧ events[i]? = some event ∧
    ∃ before, (compile api false (events.take i) given).outcome = .ok before ∧
      before.errors = [] ∧ additions api before.resources event = .error first.failure
  raised : (compile api true events given).outcome = .error first.failure
  entry : first.toJson =
    .obj (Entries.merge [("index", .int first.index)] first.failure.report.toFields)
  printed : ∃ after, ∀ (session : Log.Session) (logger : Log.Logger),
    session.lines logger (compile api false events given).records =
      session.lines logger (compile api true events given).records ++
        session.lines logger (skippedRecord first :: after)
  silent : ∀ record ∈ (compile api true events given).records, record.level ≠ .error

theorem StopsAt.failsAt {api : Api} {given : ResourceMap} {events : List Event} {position : Nat}
    {failure : Failure} (h : StopsAt api { resources := given } 0 events position failure) :
    FailsAt api given events ⟨position, failure⟩ := by
  obtain ⟨event, hevent, hfailed⟩ := h.failed
  obtain ⟨after, hafter⟩ := h.logged
  rw [Int.zero_add] at hafter
  have hstrict : compile api true events given =
      ⟨(addEvents api true { resources := given } 0 events).records, .error failure⟩ := by
    rw [compile, Run.bind_of_error h.raised]
  have hlenient := compile_eq_of_ok (addEvents_lenient api { resources := given } 0 events)
  refine ⟨⟨position, event, rfl, hevent, _, compile_lenient api _ given, h.before, hfailed⟩, ?_,
    rfl, ?_, ?_⟩
  · rw [hstrict]
  · refine ⟨after ++ [summaryRecord (settleAll api { resources := given } 0 events)], ?_⟩
    intro session logger
    rw [hlenient, hstrict, hafter]
    simp [Log.Session.lines]
  · rw [hstrict]
    exact h.silent

/-- Strict and not, compilations agree up to the first failure. Without one they return the same and
print the same, and otherwise the strict one fails there, with what the other one reports first. -/
theorem compile_strict_agrees (api : Api) (events : List Event) (given : ResourceMap) :
    ∃ result, (compile api false events given).outcome = .ok result ∧
      match result.errors with
      | [] => (compile api true events given).outcome = .ok result ∧
          ∀ (session : Log.Session) (logger : Log.Logger),
            session.lines logger (compile api true events given).records =
              session.lines logger (compile api false events given).records
      | first :: _ => FailsAt api given events first := by
  refine ⟨_, compile_lenient api events given, ?_⟩
  rcases strict_cases api { resources := given } 0 events with
    ⟨herrors, hsame⟩ | ⟨position, failure, hstop⟩
  · have hcompile : compile api true events given = compile api false events given := by
      rw [compile, hsame, compile]
    rw [herrors, hcompile]
    exact ⟨compile_lenient api events given, fun _ _ => rfl⟩
  · obtain ⟨others, hothers⟩ := hstop.reported
    rw [hothers, Int.zero_add]
    exact hstop.failsAt

end TableGateway.Compile
