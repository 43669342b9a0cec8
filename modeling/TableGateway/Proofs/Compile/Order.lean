import TableGateway.Proofs.Compile.Serving

/-! # The order of events

Events are compiled without an error exactly when each fits what was given and any two fit each
other. That does not depend on their order, and neither do the methods and, up to the spelling of
values, the map: of two events with a path resource in common the earlier one adds it. -/

namespace TableGateway

namespace Compile

/-! ## Events that fit each other -/

/-- Two events fit each other: their methods have two IDs, and a path resource that both of them
need is the same for both. -/
structure Compatible (api : Api) (one other : Event) : Prop where
  methods : one.methodLogicalId ≠ other.methodLogicalId
  paths : ∀ id held needed, (id, held) ∈ Route.resources api one.path →
    (id, needed) ∈ Route.resources api other.path → Json.Same held.toJson needed.toJson

theorem Compatible.symm {api : Api} {one other : Event} (h : Compatible api one other) :
    Compatible api other one :=
  ⟨h.methods.symm, fun id held needed hm hn => (h.paths id needed held hn hm).symm⟩

/-- One more earlier event is one more that an event has to fit. -/
theorem admitted_concat_iff {api : Api} {given : ResourceMap} {earlier : List Event}
    {other event : Event} :
    Admitted api given (earlier ++ [other]) event ↔
      Admitted api given earlier event ∧ Compatible api other event := by
  have hlast : other ∈ earlier ++ [other] := by simp
  constructor
  · intro h
    have hfree : MethodFree given earlier event :=
      ⟨h.free.1, fun e he => h.free.2 e (List.mem_append_left _ he)⟩
    have hfits : ∀ entry ∈ Route.resources api event.path, Fits api given earlier entry :=
      fun entry hm => ⟨(h.fits entry hm).given,
        fun e he => (h.fits entry hm).earlier e (List.mem_append_left _ he)⟩
    refine ⟨⟨h.made, hfree, hfits⟩, h.free.2 other hlast, ?_⟩
    intro id held needed hm hn
    exact (h.fits (id, needed) hn).earlier other hlast held hm
  · rintro ⟨h, hc⟩
    refine ⟨h.made, ⟨h.free.1, ?_⟩, fun entry hm => ⟨(h.fits entry hm).given, ?_⟩⟩
    · intro e he
      rcases List.mem_append.mp he with he | he
      · exact h.free.2 e he
      · obtain rfl := List.mem_singleton.mp he
        exact hc.methods
    · intro e he held hheld
      rcases List.mem_append.mp he with he | he
      · exact (h.fits entry hm).earlier e he held hheld
      · obtain rfl := List.mem_singleton.mp he
        exact hc.paths entry.1 held entry.2 hheld hm

/-- Events that are admitted after some others and fit each other. -/
structure Consistent (api : Api) (given : ResourceMap) (earlier events : List Event) : Prop where
  admitted : ∀ event ∈ events, Admitted api given earlier event
  compatible : events.Pairwise (Compatible api)

namespace Consistent

variable {api : Api} {given : ResourceMap} {earlier events : List Event}

theorem cons_iff {event : Event} :
    Consistent api given earlier (event :: events) ↔
      Admitted api given earlier event ∧ Consistent api given (earlier ++ [event]) events := by
  constructor
  · rintro ⟨hadm, hcomp⟩
    rw [List.pairwise_cons] at hcomp
    refine ⟨hadm event (by simp), ?_, hcomp.2⟩
    intro e he
    exact admitted_concat_iff.mpr ⟨hadm e (List.mem_cons_of_mem _ he), hcomp.1 e he⟩
  · rintro ⟨hadm, hrest, hcomp⟩
    refine ⟨?_, List.pairwise_cons.mpr ⟨?_, hcomp⟩⟩
    · intro e he
      rcases List.mem_cons.mp he with rfl | he
      · exact hadm
      · exact (admitted_concat_iff.mp (hrest e he)).1
    · intro e he
      exact (admitted_concat_iff.mp (hrest e he)).2

/-- The order of the events has no part in this. -/
theorem perm {other : List Event} (h : Consistent api given earlier events)
    (hp : events.Perm other) : Consistent api given earlier other :=
  ⟨fun e he => h.admitted e (hp.mem_iff.mpr he), h.compatible.perm hp .symm⟩

end Consistent

/-! ## Passes without an error -/

namespace Intact

variable {api : Api} {given : ResourceMap} {result : Result}

/-- A pass adds no error exactly when its events are consistent with what is compiled already. -/
theorem errors_settleAll_eq_iff (h : Intact api given result) (index : Int)
    (events : List Event) :
    (settleAll api result index events).errors = result.errors ↔
      Consistent api given result.events events := by
  induction events generalizing result index with
  | nil => exact ⟨fun _ => ⟨by simp, .nil⟩, fun _ => rfl⟩
  | cons event rest ih =>
      rw [Consistent.cons_iff, settleAll]
      rcases settle_cases h index event with
        ⟨hadm, hi, hevents, herrors⟩ | ⟨failure, hout, -, -, herrors⟩
      · rw [← herrors, ih hi, hevents]
        simp [hadm]
      · have hp := errors_prefix_settleAll api (settle api result index event) (index + 1) rest
        rw [herrors] at hp
        constructor
        · intro he
          rw [he] at hp
          exact absurd hp.length_le (by simp)
        · intro hc
          exact absurd hc.1 hout.not_admitted

end Intact

/-- Consistent events are all compiled, from nothing but what was given. -/
theorem Consistent.events_settleAll {api : Api} {given : ResourceMap} {events : List Event}
    (h : Consistent api given [] events) (hgiven : given.Objects) :
    (settleAll api { resources := given } 0 events).events = events :=
  events_settleAll_of_errors_eq
    (((Intact.start api hgiven).errors_settleAll_eq_iff 0 events).mpr h)

/-! ## Maps of the same events -/

namespace Intact

variable {api : Api} {given : ResourceMap} {result : Result}

/-- What one result has stands in every other one that compiled the same events and maybe more. -/
theorem exists_same_of_get? (h : Intact api given result) {other : Result}
    (k : Intact api given other) (hsub : result.events ⊆ other.events) {id : Text}
    {value : Resource} (hg : Entries.get? result.resources id = some value) :
    ∃ found, Entries.get? other.resources id = some found ∧
      Json.Same value.toJson found.toJson := by
  rcases h.origin id value hg with hv | hid | ⟨event, he, resource, hm, rfl⟩
  · exact ⟨value, k.kept id value hv, .refl _⟩
  · -- A method is made from its event alone.
    obtain ⟨compiled, hc, rfl⟩ := List.mem_map.mp hid
    obtain ⟨hname, method, hmade, hmethod⟩ := h.methods compiled hc
    obtain ⟨again, ha, hevent⟩ := List.mem_map.mp (hsub (List.mem_map_of_mem hc))
    obtain ⟨hagain, made, hmade', hfound⟩ := k.methods again ha
    rw [hevent] at hagain hmade'
    obtain rfl := Except.ok.inj (hmade.symm.trans hmade')
    obtain rfl := Option.some.inj (hmethod.symm.trans hg)
    rw [hagain, ← hname] at hfound
    exact ⟨_, hfound, .refl _⟩
  · obtain ⟨held, hheld, hs⟩ := k.paths event (hsub he) _ hm
    exact ⟨held, hheld, hs.symm⟩

end Intact

end Compile

/-- Maps with the same keys, and under each key with values that are the same. -/
def ResourceMap.Same (a b : ResourceMap) : Prop :=
  ∀ id, Option.Rel (fun one other : Resource => Json.Same one.toJson other.toJson)
    (Entries.get? a id) (Entries.get? b id)

namespace Compile

theorem Intact.same_of_mem_iff {api : Api} {given : ResourceMap} {result other : Result}
    (h : Intact api given result) (k : Intact api given other)
    (hevents : ∀ event, event ∈ result.events ↔ event ∈ other.events) :
    ResourceMap.Same result.resources other.resources := by
  intro id
  cases hg : Entries.get? result.resources id with
  | some value =>
      obtain ⟨found, hf, hs⟩ := h.exists_same_of_get? k (fun e => (hevents e).mp) hg
      rw [hf]
      exact .some hs
  | none =>
      cases hf : Entries.get? other.resources id with
      | none => exact .none
      | some found =>
          obtain ⟨value, hv, -⟩ := k.exists_same_of_get? h (fun e => (hevents e).mpr) hf
          rw [hg] at hv
          cases hv

/-- Where events are compiled without an error, so are the same events in any other order, in either
mode, and this gives the same map and the same methods. -/
theorem compile_perm (api : Api) {given : ResourceMap} (hgiven : given.Objects)
    {events other : List Event} (hp : events.Perm other) {strict : Bool} {result : Result}
    (h : (compile api strict events given).outcome = .ok result) (hok : result.errors = [])
    (otherStrict : Bool) :
    ∃ reordered, (compile api otherStrict other given).outcome = .ok reordered ∧
      reordered.errors = [] ∧ ResourceMap.Same result.resources reordered.resources ∧
      result.methodIds.Perm reordered.methodIds := by
  obtain rfl := compile_eq_settleAll h
  have hstart := Intact.start api hgiven
  have hcons := (hstart.errors_settleAll_eq_iff 0 events).mp hok
  have hother : (settleAll api { resources := given } 0 other).errors = [] :=
    (hstart.errors_settleAll_eq_iff 0 other).mpr (hcons.perm hp)
  have hcompile := compile_of_no_errors otherStrict hother
  have hi := Intact.compile hgiven h
  have hk := Intact.compile hgiven hcompile
  have hevents := events_settleAll_of_errors_eq hok
  have hevents' := events_settleAll_of_errors_eq hother
  have hperm : (settleAll api { resources := given } 0 events).events.Perm
      (settleAll api { resources := given } 0 other).events := by
    rw [hevents, hevents']
    exact hp.append_left _
  refine ⟨_, hcompile, hother, hi.same_of_mem_iff hk fun e => hperm.mem_iff, ?_⟩
  rw [hi.methodIds_eq, hk.methodIds_eq]
  exact hperm.map _

/-- An event that reads all users, whose path is a part of the way to one user. -/
def readUsers : Event := { readUser with path := "users" }

/-- The two share a path resource, which whichever comes first adds. -/
theorem compile_perm_readUser :
    (ResourceMap.ownApi (.str "users-api")).Objects ∧
      [readUser, readUsers].Perm [readUsers, readUser] ∧
      ∃ result reordered,
        (compile Api.own false [readUser, readUsers] (.ownApi (.str "users-api"))).outcome =
          .ok result ∧ result.errors = [] ∧ result.methodIds.length = 2 ∧
        (compile Api.own true [readUsers, readUser] (.ownApi (.str "users-api"))).outcome =
          .ok reordered ∧ reordered.errors = [] ∧
        ResourceMap.Same result.resources reordered.resources ∧
        result.methodIds.Perm reordered.methodIds := by
  have hgiven : (ResourceMap.ownApi (.str "users-api")).Objects := objects_ownApi _
  have hp : [readUser, readUsers].Perm [readUsers, readUser] := .swap ..
  have h := compile_lenient Api.own [readUser, readUsers] (.ownApi (.str "users-api"))
  have hok : (settleAll Api.own { resources := .ownApi (.str "users-api") } 0
      [readUser, readUsers]).errors = [] := by
    decide +kernel
  obtain ⟨reordered, hr, hnone, hsame, hmethods⟩ := compile_perm Api.own hgiven hp h hok true
  refine ⟨hgiven, hp, _, reordered, h, hok, ?_, hr, hnone, hsame, hmethods⟩
  decide +kernel

end Compile

end TableGateway
