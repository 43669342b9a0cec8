import TableGateway.Proofs.Compile.Invariant
import TableGateway.Proofs.Report

/-! # Which events are compiled

A pass that is not strict selects greedily: an event is compiled exactly when it is compatible with
what was given and with the events selected before it. All others are reported, each at its place.
-/

namespace TableGateway.Compile

/-! ## Compatibility -/

/-- Whether the ID of an event's method is used neither by a given entry nor by the method of an
earlier event. -/
def MethodFree (given : ResourceMap) (earlier : List Event) (event : Event) : Prop :=
  event.methodLogicalId ∉ Entries.keys given ∧
    ∀ other ∈ earlier, other.methodLogicalId ≠ event.methodLogicalId

/-- Whether a path resource is the same as what is given under its ID, and as what the path of every
earlier event has under it. -/
structure Fits (api : Api) (given : ResourceMap) (earlier : List Event)
    (entry : Text × PathResource) : Prop where
  given : ∀ held, Entries.get? given entry.1 = some held →
    Json.Same held.toJson entry.2.toJson
  earlier : ∀ other ∈ earlier, ∀ held, (entry.1, held) ∈ Route.resources api other.path →
    Json.Same held.toJson entry.2.toJson

/-- An event is compatible with what was given and with earlier events. -/
structure Admitted (api : Api) (given : ResourceMap) (earlier : List Event) (event : Event) :
    Prop where
  made : ∃ method, MethodResource.ofEvent api event = .ok method
  free : MethodFree given earlier event
  fits : ∀ entry ∈ Route.resources api event.path, Fits api given earlier entry

/-- The code of a failure: that of its cause, or the one for failures that no rule names. -/
def failureCode : Failure → Text
  | .rejected cause => cause.code
  | .unexpected _ => "INTERNAL_ERROR"

/-- Whether an error entry shows a position and a code. -/
structure Shows (entry : Json) (index : Int) (code : Text) : Prop where
  index : entry.field "index" = .int index
  code : entry.field "errorCode" = .str code

/-- Why an event is left out, and what its error entry says of it: the method fails; or its ID is
taken; or some path resource does not fit, of which the entry names the first. -/
inductive LeftOut (api : Api) (given : ResourceMap) (earlier : List Event) (index : Int)
    (event : Event) (entry : Json) : Prop where
  | notMade {failure : Failure} (h : MethodResource.ofEvent api event = .error failure)
      (hs : Shows entry index (failureCode failure))
  | methodTaken {method : MethodResource} (h : MethodResource.ofEvent api event = .ok method)
      (hf : ¬ MethodFree given earlier event) (hs : Shows entry index "LOGICAL_ID_COLLISION")
      (hid : entry.field "logicalId" = .str event.methodLogicalId)
  | pathTaken {method : MethodResource} (h : MethodResource.ofEvent api event = .ok method)
      (hf : MethodFree given earlier event)
      {before after : List (Text × PathResource)} {first : Text × PathResource}
      (he : Route.resources api event.path = before ++ first :: after)
      (hb : ∀ e ∈ before, Fits api given earlier e) (hm : ¬ Fits api given earlier first)
      (hs : Shows entry index "LOGICAL_ID_COLLISION")
      (hid : entry.field "logicalId" = .str first.1)

theorem LeftOut.not_admitted {api : Api} {given : ResourceMap} {earlier : List Event}
    {index : Int} {event : Event} {entry : Json}
    (h : LeftOut api given earlier index event entry) : ¬ Admitted api given earlier event := by
  intro ha
  cases h with
  | notMade hm =>
      obtain ⟨method, ho⟩ := ha.made
      rw [ho] at hm
      cases hm
  | methodTaken _ hf => exact hf ha.free
  | pathTaken _ _ he _ hm => exact hm (ha.fits _ (by simp [he]))

/-! ## The map and the earlier events -/

namespace Intact

variable {api : Api} {given : ResourceMap} {result : Result}

theorem methodIds_eq (h : Intact api given result) :
    result.methodIds = result.events.map Event.methodLogicalId := by
  unfold Result.methodIds Result.events
  rw [List.map_map]
  apply List.map_congr_left
  intro compiled hc
  exact (h.methods compiled hc).1

/-- The ID of a method is free in the map exactly when it is compatible. -/
theorem methodFree_iff (h : Intact api given result) (event : Event) :
    event.methodLogicalId ∉ Entries.keys result.resources ↔
      MethodFree given result.events event := by
  constructor
  · intro hk
    refine ⟨fun hg => hk (h.mem_keys_of_given hg), ?_⟩
    intro other ho he
    apply hk
    apply h.mem_keys_of_mem_methodIds
    rw [h.methodIds_eq, ← he]
    exact List.mem_map_of_mem ho
  · rintro ⟨hgiven, hearlier⟩ hk
    obtain ⟨value, hv⟩ := Entries.exists_get?_of_mem_keys hk
    rcases h.origin _ value hv with hg | hid | ⟨other, -, resource, hr, -⟩
    · exact hgiven (Entries.mem_keys_of_get? hg)
    · rw [h.methodIds_eq] at hid
      obtain ⟨other, ho, he⟩ := List.mem_map.mp hid
      exact hearlier other ho he
    · exact Route.methodLogicalId_not_mem_keys api other.path _ _ (Entries.mem_keys_of_mem hr)

theorem agrees_iff (h : Intact api given result) {path : Text} {entry : Text × PathResource}
    (he : entry ∈ Route.resources api path) :
    Agrees result.resources entry ↔ Fits api given result.events entry := by
  unfold Agrees
  rw [held?_eq_get? h.objects]
  constructor
  · intro ha
    refine ⟨fun held hg => ha held (h.kept _ held hg), ?_⟩
    intro other ho held hm
    obtain ⟨there, hg, hs⟩ := h.paths other ho (entry.1, held) hm
    exact hs.symm.trans (ha there hg)
  · intro hf held hg
    rcases h.origin _ held hg with hg | hid | ⟨other, ho, resource, hr, rfl⟩
    · exact hf.given held hg
    · rw [h.methodIds_eq] at hid
      obtain ⟨other, -, hid⟩ := List.mem_map.mp hid
      have hk : entry.1 ∈ Entries.keys (Route.resources api path) := Entries.mem_keys_of_mem he
      rw [← hid] at hk
      exact absurd hk (Route.methodLogicalId_not_mem_keys api path _ _)
    · exact hf.earlier other ho resource hr

theorem admitted_of_addable (h : Intact api given result) {event : Event}
    {method : MethodResource} (ha : Addable api result.resources event method) :
    Admitted api given result.events event :=
  ⟨⟨method, ha.made⟩, (h.methodFree_iff event).mp ha.free,
    fun entry he => (h.agrees_iff he).mp (ha.agrees entry he)⟩

theorem leftOut_of_rejected (h : Intact api given result) {event : Event} {failure : Failure}
    (hr : Rejected api result.resources event failure) (index : Int) :
    LeftOut api given result.events index event (Skipped.toJson ⟨index, failure⟩) := by
  rw [Skipped.toJson_eq]
  have hs : Shows (failure.report.entryAt index) index failure.report.code :=
    ⟨failure.clear.field_index index, failure.clear.field_code index⟩
  have hid : ∀ id, Entries.get? failure.report.details "logicalId" = some (.str id) →
      (failure.report.entryAt index).field "logicalId" = .str id :=
    fun id hg => failure.clear.field_detail index hg
  cases hr with
  | method hm =>
      refine .notMade hm ?_
      cases failure <;> exact hs
  | methodTaken hm hk =>
      exact .methodTaken hm (fun hf => (h.methodFree_iff event).mpr hf hk) hs (hid _ rfl)
  | pathTaken hm hk he hb ha =>
      have hin : ∀ e ∈ _, e ∈ Route.resources api event.path := fun e hmem => he ▸ hmem
      refine .pathTaken hm ((h.methodFree_iff event).mp hk) he ?_ ?_ hs (hid _ rfl)
      · intro e hmem
        exact (h.agrees_iff (hin e (List.mem_append_left _ hmem))).mp (hb e hmem)
      · intro hf
        exact ha ((h.agrees_iff (hin _ (by simp))).mpr hf)

end Intact

/-! ## A pass that is not strict -/

theorem Run.outcome_bind {α β : Type} (run : Run α) (next : α → Run β) :
    (run.bind next).outcome = run.outcome.bind fun value => (next value).outcome := by
  unfold Run.bind
  cases run.outcome <;> rfl

/-- The result after an event was added or, if that fails, skipped. -/
def settle (api : Api) (result : Result) (index : Int) (event : Event) : Result :=
  match additions api result.resources event with
  | .ok more => withEvent result index event more
  | .error failure => withSkipped result index event failure

theorem settle_of_ok {api : Api} {result : Result} {event : Event} {more : ResourceMap}
    (h : additions api result.resources event = .ok more) (index : Int) :
    settle api result index event = withEvent result index event more := by
  simp [settle, h]

theorem settle_of_error {api : Api} {result : Result} {event : Event} {failure : Failure}
    (h : additions api result.resources event = .error failure) (index : Int) :
    settle api result index event = withSkipped result index event failure := by
  simp [settle, h]

/-- The result after some events, counting positions from `index`. -/
def settleAll (api : Api) (result : Result) (index : Int) : List Event → Result
  | [] => result
  | event :: rest => settleAll api (settle api result index event) (index + 1) rest

theorem addEvents_lenient (api : Api) (result : Result) (index : Int) (events : List Event) :
    (addEvents api false result index events).outcome =
      .ok (settleAll api result index events) := by
  induction events generalizing result index with
  | nil => rfl
  | cons event rest ih =>
      have hstep : (addEvent api false result index event).outcome =
          .ok (settle api result index event) := by
        rw [addEvent_outcome, settle]
        cases additions api result.resources event <;> rfl
      rw [addEvents, Run.outcome_bind, hstep]
      exact ih _ _

theorem compile_lenient (api : Api) (events : List Event) (given : ResourceMap) :
    (compile api false events given).outcome =
      .ok (settleAll api { resources := given } 0 events) := by
  rw [compile, Run.outcome_bind, addEvents_lenient]
  rfl

/-! ## Passes of either mode -/

theorem errors_prefix_settle (api : Api) (result : Result) (index : Int) (event : Event) :
    result.errors <+: (settle api result index event).errors := by
  unfold settle
  cases additions api result.resources event with
  | ok more => exact List.prefix_rfl
  | error failure => exact List.prefix_append _ _

theorem errors_prefix_settleAll (api : Api) (result : Result) (index : Int) (events : List Event) :
    result.errors <+: (settleAll api result index events).errors := by
  induction events generalizing result index with
  | nil => exact List.prefix_rfl
  | cons event rest ih => exact (errors_prefix_settle api result index event).trans (ih _ _)

theorem compiled_prefix_settle (api : Api) (result : Result) (index : Int) (event : Event) :
    result.compiled <+: (settle api result index event).compiled := by
  unfold settle
  cases additions api result.resources event with
  | ok more => exact List.prefix_append _ _
  | error failure => exact List.prefix_rfl

theorem compiled_prefix_settleAll (api : Api) (result : Result) (index : Int)
    (events : List Event) :
    result.compiled <+: (settleAll api result index events).compiled := by
  induction events generalizing result index with
  | nil => exact List.prefix_rfl
  | cons event rest ih => exact (compiled_prefix_settle api result index event).trans (ih _ _)

/-- What no step that returns a result breaks holds at the end of a pass. -/
theorem addEvents_preserves {api : Api} {strict : Bool} {P : Result → Prop}
    (hstep : ∀ result next index event, P result →
      (addEvent api strict result index event).outcome = .ok next → P next)
    {result last : Result} {index : Int} {events : List Event} (h : P result)
    (hl : (addEvents api strict result index events).outcome = .ok last) : P last := by
  induction events generalizing result index with
  | nil => exact Except.ok.inj hl ▸ h
  | cons event rest ih =>
      rw [addEvents, Run.outcome_bind] at hl
      cases hn : (addEvent api strict result index event).outcome with
      | error failure => simp [hn, Except.bind] at hl
      | ok next =>
          rw [hn] at hl
          exact ih (hstep result next index event h hn) hl

/-- The result of a compilation is that of its pass. -/
theorem addEvents_of_compile {api : Api} {strict : Bool} {events : List Event}
    {given : ResourceMap} {result : Result}
    (h : (compile api strict events given).outcome = .ok result) :
    (addEvents api strict { resources := given } 0 events).outcome = .ok result := by
  rw [compile, Run.outcome_bind] at h
  cases hl : (addEvents api strict { resources := given } 0 events).outcome with
  | error failure => simp [hl, Except.bind] at h
  | ok last =>
      rw [hl] at h
      exact h

/-- A pass that returns a result has settled all events, whatever its mode. -/
theorem addEvents_eq_settleAll {api : Api} {strict : Bool} {result last : Result} {index : Int}
    {events : List Event} (h : (addEvents api strict result index events).outcome = .ok last) :
    last = settleAll api result index events := by
  induction events generalizing result index with
  | nil => exact (Except.ok.inj h).symm
  | cons event rest ih =>
      rw [addEvents, Run.outcome_bind, addEvent_outcome] at h
      rw [settleAll, settle]
      cases ha : additions api result.resources event with
      | ok more =>
          rw [ha] at h
          exact ih h
      | error failure =>
          rw [ha] at h
          cases strict with
          | true => cases h
          | false => exact ih h

/-- Where settling adds no error, the first event is added, and the others add no error either. -/
theorem exists_additions_of_errors_eq {api : Api} {result : Result} {index : Int} {event : Event}
    {rest : List Event}
    (h : (settleAll api result index (event :: rest)).errors = result.errors) :
    ∃ more, additions api result.resources event = .ok more ∧
      settle api result index event = withEvent result index event more ∧
      (settleAll api (withEvent result index event more) (index + 1) rest).errors =
        result.errors := by
  rw [settleAll] at h
  have hp := errors_prefix_settleAll api (settle api result index event) (index + 1) rest
  cases ha : additions api result.resources event with
  | ok more =>
      have hs := settle_of_ok ha index
      exact ⟨more, rfl, hs, hs ▸ h⟩
  | error failure =>
      -- The error of this event would stay to the end.
      rw [h, settle_of_error ha] at hp
      exact absurd hp.length_le (by simp [withSkipped])

/-- Where settling adds no error, a strict pass returns the same result. -/
theorem addEvents_of_errors_eq {api : Api} (strict : Bool) {result : Result} {index : Int}
    {events : List Event} (h : (settleAll api result index events).errors = result.errors) :
    (addEvents api strict result index events).outcome =
      .ok (settleAll api result index events) := by
  induction events generalizing result index with
  | nil => rfl
  | cons event rest ih =>
      obtain ⟨more, ha, hs, hr⟩ := exists_additions_of_errors_eq h
      rw [addEvents, Run.outcome_bind, addEvent_outcome, ha, settleAll, hs]
      exact ih hr

/-- Where settling adds no error, all events are compiled. -/
theorem events_settleAll_of_errors_eq {api : Api} {result : Result} {index : Int}
    {events : List Event} (h : (settleAll api result index events).errors = result.errors) :
    (settleAll api result index events).events = result.events ++ events := by
  induction events generalizing result index with
  | nil => simp [settleAll]
  | cons event rest ih =>
      obtain ⟨more, -, hs, hr⟩ := exists_additions_of_errors_eq h
      rw [settleAll, hs, ih hr, events_withEvent, List.append_assoc, List.singleton_append]

theorem compile_eq_settleAll {api : Api} {strict : Bool} {events : List Event}
    {given : ResourceMap} {result : Result}
    (h : (compile api strict events given).outcome = .ok result) :
    result = settleAll api { resources := given } 0 events :=
  addEvents_eq_settleAll (addEvents_of_compile h)

theorem compile_of_no_errors {api : Api} (strict : Bool) {events : List Event}
    {given : ResourceMap}
    (h : (settleAll api { resources := given } 0 events).errors = []) :
    (compile api strict events given).outcome =
      .ok (settleAll api { resources := given } 0 events) := by
  rw [compile, Run.outcome_bind, addEvents_of_errors_eq strict h]
  rfl

/-- One event is added as admitted or skipped as left out. -/
theorem settle_cases {api : Api} {given : ResourceMap} {result : Result}
    (h : Intact api given result) (index : Int) (event : Event) :
    (Admitted api given result.events event ∧ Intact api given (settle api result index event) ∧
      (settle api result index event).events = result.events ++ [event] ∧
      (settle api result index event).errors = result.errors) ∨
    ∃ failure,
      LeftOut api given result.events index event (Skipped.toJson ⟨index, failure⟩) ∧
      Intact api given (settle api result index event) ∧
      (settle api result index event).events = result.events ∧
      (settle api result index event).errors = result.errors ++ [⟨index, failure⟩] := by
  unfold settle
  rcases additions_cases api result.resources event with ⟨method, ha, he⟩ | ⟨failure, hr, he⟩
  · rw [he]
    exact Or.inl ⟨h.admitted_of_addable ha, h.withEvent index ha, events_withEvent index _, rfl⟩
  · rw [he]
    exact Or.inr ⟨failure, h.leftOut_of_rejected hr index, h.withSkipped index event failure,
      rfl, rfl⟩

/-! ## Verdicts -/

/-- The events without a failure among their verdicts. -/
def chosen : List Event → List (Option Failure) → List Event
  | event :: events, none :: verdicts => event :: chosen events verdicts
  | _ :: events, some _ :: verdicts => chosen events verdicts
  | _, _ => []

/-- The failures among verdicts with their positions, counted from `index`. -/
def refusals (index : Int) : List (Option Failure) → List Skipped
  | [] => []
  | none :: verdicts => refusals (index + 1) verdicts
  | some failure :: verdicts => ⟨index, failure⟩ :: refusals (index + 1) verdicts

/-- Verdicts on events one after another, each in the light of the events chosen before. -/
inductive Judged (api : Api) (given : ResourceMap) :
    List Event → Int → List Event → List (Option Failure) → Prop where
  | nil (earlier index) : Judged api given earlier index [] []
  | compiled {earlier index event events verdicts} :
      Admitted api given earlier event →
      Judged api given (earlier ++ [event]) (index + 1) events verdicts →
      Judged api given earlier index (event :: events) (none :: verdicts)
  | skipped {earlier index event events failure verdicts} :
      LeftOut api given earlier index event (Skipped.toJson ⟨index, failure⟩) →
      Judged api given earlier (index + 1) events verdicts →
      Judged api given earlier index (event :: events) (some failure :: verdicts)

/-- A run judges its events: it compiles the chosen ones and reports the others. -/
theorem settleAll_judged {api : Api} {given : ResourceMap} {result : Result}
    (h : Intact api given result) (index : Int) (events : List Event) :
    ∃ verdicts, Judged api given result.events index events verdicts ∧
      (settleAll api result index events).events = result.events ++ chosen events verdicts ∧
      (settleAll api result index events).errors = result.errors ++ refusals index verdicts := by
  induction events generalizing result index with
  | nil => exact ⟨[], .nil _ _, by simp [settleAll, chosen], by simp [settleAll, refusals]⟩
  | cons event rest ih =>
      rcases settle_cases h index event with
        ⟨hadm, hi, hev, her⟩ | ⟨failure, hout, hi, hev, her⟩
      · obtain ⟨verdicts, hj, hevents, herrors⟩ := ih hi (index + 1)
        rw [hev] at hj hevents
        rw [her] at herrors
        exact ⟨none :: verdicts, .compiled hadm hj, by simp [settleAll, chosen, hevents],
          by simp [settleAll, refusals, herrors]⟩
      · obtain ⟨verdicts, hj, hevents, herrors⟩ := ih hi (index + 1)
        rw [hev] at hj hevents
        rw [her] at herrors
        exact ⟨some failure :: verdicts, .skipped hout hj, by simp [settleAll, chosen, hevents],
          by simp [settleAll, refusals, herrors]⟩

namespace Judged

variable {api : Api} {given : ResourceMap} {earlier : List Event} {index : Int}
  {events : List Event} {verdicts : List (Option Failure)}

theorem length_eq (h : Judged api given earlier index events verdicts) :
    verdicts.length = events.length := by
  induction h with
  | nil => rfl
  | compiled _ _ ih => simp [ih]
  | skipped _ _ ih => simp [ih]

/-- Chosen events and refusals account for all events. -/
theorem length_chosen_add (h : Judged api given earlier index events verdicts) :
    (chosen events verdicts).length + (refusals index verdicts).length = events.length := by
  induction h with
  | nil => rfl
  | compiled _ _ ih =>
      simp only [chosen, refusals, List.length_cons]
      omega
  | skipped _ _ ih =>
      simp only [chosen, refusals, List.length_cons]
      omega

/-- The verdict at a position depends on the events that were chosen before it. -/
theorem verdict_at (h : Judged api given earlier index events verdicts) (i : Nat) {event : Event}
    {verdict : Option Failure} (he : events[i]? = some event)
    (hv : verdicts[i]? = some verdict) :
    let before := earlier ++ chosen (events.take i) (verdicts.take i)
    (verdict = none ↔ Admitted api given before event) ∧
      ∀ failure, verdict = some failure →
        LeftOut api given before (index + i) event (Skipped.toJson ⟨index + i, failure⟩) := by
  induction h generalizing i with
  | nil => simp at he
  | compiled hadm _ ih =>
      cases i with
      | zero =>
          simp only [List.getElem?_cons_zero, Option.some.injEq] at he hv
          subst he hv
          simpa [chosen] using hadm
      | succ i =>
          simp only [List.getElem?_cons_succ] at he hv
          have hi := ih i he hv
          simpa [chosen, Int.add_assoc, Int.add_comm 1] using hi
  | skipped hout _ ih =>
      cases i with
      | zero =>
          simp only [List.getElem?_cons_zero, Option.some.injEq] at he hv
          subst he hv
          simpa [chosen, hout.not_admitted] using hout
      | succ i =>
          simp only [List.getElem?_cons_succ] at he hv
          have hi := ih i he hv
          simpa [chosen, Int.add_assoc, Int.add_comm 1] using hi

end Judged

/-- A result and the verdicts on the events that explain it. Events without a failure are compiled,
all others have one error entry each, and the verdict at a position is the greedy one. -/
structure Selection (api : Api) (given : ResourceMap) (events : List Event) (result : Result)
    (verdicts : List (Option Failure)) : Prop where
  length_eq : verdicts.length = events.length
  compiled : result.events = chosen events verdicts
  errors : result.errors = refusals 0 verdicts
  accounted : result.events.length + result.errors.length = events.length
  admitted : ∀ (i : Nat) event verdict, events[i]? = some event → verdicts[i]? = some verdict →
    (verdict = none ↔ Admitted api given (chosen (events.take i) (verdicts.take i)) event)
  leftOut : ∀ (i : Nat) event failure, events[i]? = some event →
    verdicts[i]? = some (some failure) →
    LeftOut api given (chosen (events.take i) (verdicts.take i)) i event
      (Skipped.toJson ⟨i, failure⟩)

/-- Without strictness a compilation never fails, and it makes the greedy selection. -/
theorem compile_selects (api : Api) {given : ResourceMap} (hgiven : given.Objects)
    (events : List Event) :
    ∃ result verdicts, (compile api false events given).outcome = .ok result ∧
      Selection api given events result verdicts := by
  obtain ⟨verdicts, hj, hevents, herrors⟩ :=
    settleAll_judged (Intact.start api hgiven) 0 events
  refine ⟨_, verdicts, compile_lenient api events given, hj.length_eq, hevents, herrors, ?_, ?_, ?_⟩
  · rw [hevents, herrors]
    simpa [Result.events] using hj.length_chosen_add
  · intro i event verdict he hv
    simpa [Result.events] using (hj.verdict_at i he hv).1
  · intro i event failure he hv
    simpa [Result.events] using (hj.verdict_at i he hv).2 failure rfl

/-- Of two events for one method, on top of the stack's own API, the first one is compiled, and the
second one is left out with one error at its position, for its method is taken. -/
theorem compile_selects_readUser :
    (ResourceMap.ownApi (.str "users-api")).Objects ∧
      ∃ result verdicts,
        (compile Api.own false [readUser, readUser] (.ownApi (.str "users-api"))).outcome =
          .ok result ∧
        Selection Api.own (.ownApi (.str "users-api")) [readUser, readUser] result verdicts ∧
        result.compiled = [⟨"ApiGatewayMethodUsersIdVarGet", readUser⟩] ∧
        result.errors = [⟨1, .rejected (.methodTaken "ApiGatewayMethodUsersIdVarGet"
          "users/{id}" "get")⟩] := by
  have hgiven : (ResourceMap.ownApi (.str "users-api")).Objects := objects_ownApi _
  obtain ⟨result, verdicts, hr, hselection⟩ := compile_selects Api.own hgiven [readUser, readUser]
  refine ⟨hgiven, result, verdicts, hr, hselection, ?_⟩
  rw [compile_lenient] at hr
  obtain rfl := Except.ok.inj hr
  exact ⟨by decide +kernel, by decide +kernel⟩

end TableGateway.Compile
