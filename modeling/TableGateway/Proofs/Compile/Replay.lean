import TableGateway.Proofs.Compile.Selection
import TableGateway.Stack

/-! # Compiling again what was compiled

What an event does depends on the map alone, and a skipped event leaves the map as it is. A second
run that is given the compiled events alone therefore goes through the same maps, and skips
nothing. -/

namespace TableGateway.Compile

/-! ## One step -/

/-- What can be added to one result can be added to any other that holds the same map, in either
mode and at any position. -/
theorem addEvent_again {api : Api} {result again : Result}
    (hr : again.resources = result.resources) {event : Event} {more : ResourceMap}
    (h : additions api result.resources event = .ok more) (strict : Bool) (index : Int) :
    (addEvent api strict again index event).outcome = .ok (withEvent again index event more) := by
  rw [addEvent_outcome, hr, h]

/-! ## Whole runs -/

/-- A run compiles some events, and a second run over these alone, from the same map and in either
mode, compiles all of them into the same map without an error. -/
theorem exists_addEvents_again (api : Api) (strict : Bool) (result again : Result)
    (hr : again.resources = result.resources) (index position : Int) (events : List Event) :
    ∃ added last, (settleAll api result index events).compiled = result.compiled ++ added ∧
      (addEvents api strict again position (added.map (·.event))).outcome = .ok last ∧
      last.resources = (settleAll api result index events).resources ∧
      last.compiled = again.compiled ++ added ∧ last.errors = again.errors := by
  -- The maps stay equal all along; the second run stands still where the first one skips.
  induction events generalizing result again index position with
  | nil => exact ⟨[], again, by simp [settleAll], rfl, hr, by simp, rfl⟩
  | cons event rest ih =>
      rw [settleAll]
      cases ha : additions api result.resources event with
      | error failure =>
          -- A skipped event is no part of what later events depend on.
          rw [settle_of_error ha]
          exact ih (withSkipped result index event failure) again hr (index + 1) position
      | ok more =>
          rw [settle_of_ok ha]
          have hsame : (withEvent again position event more).resources =
              (withEvent result index event more).resources := by simp [withEvent, hr]
          obtain ⟨added, last, hc, ho, hresources, hcompiled, herrors⟩ :=
            ih _ _ hsame (index + 1) (position + 1)
          refine ⟨⟨event.methodLogicalId, event⟩ :: added, last, ?_, ?_, hresources, ?_, herrors⟩
          · simpa [withEvent] using hc
          · rw [List.map_cons, addEvents, Run.outcome_bind, addEvent_again hr ha]
            exact ho
          · simpa [withEvent] using hcompiled

/-- Skipped events leave no trace: compiling the compiled events of a run alone, in either mode,
gives no errors, the same map in the same order, and the same methods. Role and deployment are then
the same as well. -/
theorem compile_again (api : Api) (events : List Event) (given : ResourceMap) (strict : Bool) :
    ∃ result again, (compile api false events given).outcome = .ok result ∧
      (compile api strict result.events given).outcome = .ok again ∧ again.errors = [] ∧
      again.resources = result.resources ∧ again.methodIds = result.methodIds ∧
      again.events = result.events ∧
      ResourceMap.ofRole again.events = ResourceMap.ofRole result.events ∧
      ∀ stageName, ResourceMap.ofDeployment api stageName again.methodIds =
        ResourceMap.ofDeployment api stageName result.methodIds := by
  obtain ⟨added, last, hcompiled, ho, hresources, hlast, herrors⟩ :=
    exists_addEvents_again api strict { resources := given } { resources := given } rfl 0 0 events
  have hsame : last.compiled = (settleAll api { resources := given } 0 events).compiled := by
    rw [hcompiled, hlast]
  have hids : last.methodIds = (settleAll api { resources := given } 0 events).methodIds := by
    simp only [Result.methodIds, hsame]
  have hevents : last.events = (settleAll api { resources := given } 0 events).events := by
    simp only [Result.events, hsame]
  have hagain : (compile api strict (settleAll api { resources := given } 0 events).events
      given).outcome = .ok last := by
    have hadded : (settleAll api { resources := given } 0 events).events =
        added.map (·.event) := by
      simp only [Result.events, hcompiled]
      simp
    rw [compile, Run.outcome_bind, hadded, ho]
    rfl
  refine ⟨_, last, compile_lenient api events given, hagain, herrors, hresources, hids, hevents,
    ?_, ?_⟩
  · rw [hevents]
  · intro stageName
    rw [hids]

end TableGateway.Compile
