import TableGateway.Proofs.Compile.Verdicts

/-! # What a pass logs

On each event a pass logs the warnings on its keys and then how it went, and a strict pass that ends
with an event logs the warnings on it and nothing more. -/

namespace TableGateway.Compile

theorem Run.bind_of_ok {α β : Type} {run : Run α} {value : α} (h : run.outcome = .ok value)
    (next : α → Run β) :
    run.bind next = ⟨run.records ++ (next value).records, (next value).outcome⟩ := by
  simp only [bind, h]

theorem Run.bind_of_error {α β : Type} {run : Run α} {failure : Failure}
    (h : run.outcome = .error failure) (next : α → Run β) :
    run.bind next = ⟨run.records, .error failure⟩ := by
  simp only [bind, h]

/-- The warnings on the keys of an event that do not resolve. -/
def warningRecords (index : Int) (event : Event) : List Log.Record :=
  (warningsOf index event).map (warningRecord event)

/-- What is logged on one event, by the verdict on it: the warnings on its keys and then how it
went. -/
def narration (index : Int) (event : Event) (verdict : Option Failure) : List Log.Record :=
  warningRecords index event ++
    match verdict with
    | none => [compiledRecord index event.methodLogicalId]
    | some failure => [skippedRecord ⟨index, failure⟩]

/-! ## One step -/

section Step

variable {api : Api} {result : Result} {event : Event} (index : Int)

theorem addEvent_of_ok {more : ResourceMap} (strict : Bool)
    (h : additions api result.resources event = .ok more) :
    addEvent api strict result index event =
      ⟨narration index event none, .ok (withEvent result index event more)⟩ := by
  unfold addEvent
  rw [h]
  rfl

theorem addEvent_of_error {failure : Failure}
    (h : additions api result.resources event = .error failure) :
    addEvent api false result index event =
      ⟨narration index event (some failure), .ok (withSkipped result index event failure)⟩ := by
  unfold addEvent
  rw [h]
  rfl

theorem addEvent_strict_of_error {failure : Failure}
    (h : additions api result.resources event = .error failure) :
    addEvent api true result index event = ⟨warningRecords index event, .error failure⟩ := by
  unfold addEvent
  rw [h]
  rfl

/-! ## The first step of a pass -/

variable (rest : List Event)

theorem addEvents_cons_of_ok {more : ResourceMap} (strict : Bool)
    (h : additions api result.resources event = .ok more) :
    addEvents api strict result index (event :: rest) =
      ⟨narration index event none ++
        (addEvents api strict (withEvent result index event more) (index + 1) rest).records,
        (addEvents api strict (withEvent result index event more) (index + 1) rest).outcome⟩ := by
  rw [addEvents, addEvent_of_ok index strict h]
  exact Run.bind_of_ok rfl _

theorem addEvents_cons_of_error {failure : Failure}
    (h : additions api result.resources event = .error failure) :
    addEvents api false result index (event :: rest) =
      ⟨narration index event (some failure) ++
        (addEvents api false (withSkipped result index event failure) (index + 1) rest).records,
        (addEvents api false (withSkipped result index event failure) (index + 1)
          rest).outcome⟩ := by
  rw [addEvents, addEvent_of_error index h]
  exact Run.bind_of_ok rfl _

theorem addEvents_strict_cons_of_error {failure : Failure}
    (h : additions api result.resources event = .error failure) :
    addEvents api true result index (event :: rest) =
      ⟨warningRecords index event, .error failure⟩ := by
  rw [addEvents, addEvent_strict_of_error index h]
  exact Run.bind_of_error rfl _

end Step

/-! ## Whole passes -/

/-- A pass that is not strict tells of one event after another by the verdicts on them. -/
theorem records_addEvents (api : Api) (result : Result) (start : Nat) (events : List Event) :
    (addEvents api false result start events).records =
      (List.zipWith (fun indexed verdict => narration indexed.2 indexed.1 verdict)
        (events.zipIdx start) (verdicts api result.resources events)).flatten := by
  induction events generalizing result start with
  | nil => rfl
  | cons event rest ih =>
      rw [List.zipIdx_cons]
      cases ha : additions api result.resources event with
      | ok more =>
          have hi := ih (withEvent result start event more) (start + 1)
          rw [Int.natCast_succ] at hi
          rw [addEvents_cons_of_ok _ rest false ha, verdicts_cons_of_ok api rest ha,
            List.zipWith_cons_cons, List.flatten_cons, hi]
          rfl
      | error failure =>
          have hi := ih (withSkipped result start event failure) (start + 1)
          rw [Int.natCast_succ] at hi
          rw [addEvents_cons_of_error _ rest ha, verdicts_cons_of_error api rest ha,
            List.zipWith_cons_cons, List.flatten_cons, hi]
          rfl

theorem compile_eq_of_ok {api : Api} {strict : Bool} {events : List Event} {given : ResourceMap}
    {result : Result}
    (h : (addEvents api strict { resources := given } 0 events).outcome = .ok result) :
    compile api strict events given =
      ⟨(addEvents api strict { resources := given } 0 events).records ++ [summaryRecord result],
        .ok result⟩ := by
  rw [compile, Run.bind_of_ok h]

/-- A whole pass tells of all events by what its result reports on their positions, and then sums
up. -/
theorem records_compile (api : Api) (events : List Event) (given : ResourceMap) :
    (compile api false events given).records =
      (events.zipIdx.flatMap fun indexed =>
        narration indexed.2 indexed.1
          ((settleAll api { resources := given } 0 events).failureAt? indexed.2)) ++
        [summaryRecord (settleAll api { resources := given } 0 events)] := by
  have hrecords := records_addEvents api { resources := given } 0 events
  rw [verdicts_eq_map, List.zipWith_map_right, List.zipWith_self, Int.natCast_zero] at hrecords
  rw [compile_eq_of_ok (addEvents_lenient api _ 0 events), hrecords]
  rfl

end TableGateway.Compile
