import TableGateway.Proofs.Compile.Selection

/-! # Compiling in batches

A second batch that starts from the map of the first one does what it would have done right after
it, for nothing but the map decides what an event does. Only its reports count from its own start.
-/

namespace TableGateway.Compile

/-! ## Results one after another -/

/-- The report on an event that comes later by some positions. -/
def Skipped.shift (count : Int) (skipped : Skipped) : Skipped :=
  { skipped with index := skipped.index + count }

def Warning.shift (count : Int) (warning : Warning) : Warning :=
  { warning with index := warning.index + count }

/-- A result whose map goes on from an earlier one, together with the reports of that one, as it is
when its events come later by some positions. -/
def Result.onTopOf (first : Result) (count : Int) (second : Result) : Result where
  resources := second.resources
  compiled := first.compiled ++ second.compiled
  errors := first.errors ++ second.errors.map (·.shift count)
  warnings := first.warnings ++ second.warnings.map (·.shift count)

/-- A result is on top of itself when nothing but its map is taken over. -/
theorem onTopOf_start (result : Result) (count : Int) :
    result.onTopOf count { resources := result.resources } = result := by
  simp [Result.onTopOf]

/-! ## One step -/

theorem warningsOf_add (index count : Int) (event : Event) :
    warningsOf (index + count) event = (warningsOf index event).map (·.shift count) := by
  simp [warningsOf, Warning.shift]

/-- The earlier result has no part in what an event does. -/
theorem settle_onTopOf (api : Api) (first second : Result) (count index : Int) (event : Event) :
    settle api (first.onTopOf count second) (index + count) event =
      first.onTopOf count (settle api second index event) := by
  have hmap : (first.onTopOf count second).resources = second.resources := rfl
  unfold settle
  rw [hmap]
  cases additions api second.resources event with
  | ok more => simp [withEvent, Result.onTopOf, warningsOf_add]
  | error failure => simp [withSkipped, Result.onTopOf, warningsOf_add, Skipped.shift]

/-! ## Whole runs -/

theorem settleAll_onTopOf (api : Api) (first second : Result) (count index : Int)
    (events : List Event) :
    settleAll api (first.onTopOf count second) (index + count) events =
      first.onTopOf count (settleAll api second index events) := by
  induction events generalizing second index with
  | nil => rfl
  | cons event rest ih =>
      have hnext : index + count + 1 = index + 1 + count := by omega
      rw [settleAll, settleAll, settle_onTopOf, hnext]
      exact ih _ _

theorem settleAll_append (api : Api) (result : Result) (index : Int) (front back : List Event) :
    settleAll api result index (front ++ back) =
      settleAll api (settleAll api result index front) (index + front.length) back := by
  induction front generalizing result index with
  | nil => simp [settleAll]
  | cons event rest ih =>
      have hnext : index + 1 + (rest.length : Int) = index + (event :: rest).length := by
        simp only [List.length_cons]
        omega
      rw [List.cons_append, settleAll, settleAll, ih, hnext]

/-- Compiling one list of events and then another one, on top of the map of the first, gives what
compiling them together gives: the same map in the same order, the methods and events of the one and
then of the other, and the reports of the one and then of the other, whose positions are moved on by
the number of events in the first list. -/
theorem compile_append (api : Api) (given : ResourceMap) (front back : List Event) :
    ∃ first second whole, (compile api false front given).outcome = .ok first ∧
      (compile api false back first.resources).outcome = .ok second ∧
      (compile api false (front ++ back) given).outcome = .ok whole ∧
      whole.resources = second.resources ∧
      whole.methodIds = first.methodIds ++ second.methodIds ∧
      whole.events = first.events ++ second.events ∧
      whole.errors = first.errors ++ second.errors.map (·.shift front.length) ∧
      whole.warnings = first.warnings ++ second.warnings.map (·.shift front.length) := by
  let first := settleAll api { resources := given } 0 front
  let second := settleAll api { resources := first.resources } 0 back
  have hwhole : settleAll api { resources := given } 0 (front ++ back) =
      first.onTopOf front.length second := by
    calc settleAll api { resources := given } 0 (front ++ back)
        = settleAll api first (0 + front.length) back := settleAll_append api _ 0 front back
      _ = settleAll api (first.onTopOf front.length { resources := first.resources })
            (0 + front.length) back := by rw [onTopOf_start]
      _ = first.onTopOf front.length second := settleAll_onTopOf api first _ _ 0 back
  refine ⟨first, second, _, compile_lenient api front given,
    compile_lenient api back first.resources, compile_lenient api (front ++ back) given, ?_⟩
  rw [hwhole]
  exact ⟨rfl, List.map_append, List.map_append, rfl, rfl⟩

end TableGateway.Compile
