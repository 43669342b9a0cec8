import TableGateway.Proofs.Compile.Step

/-! # What a compilation never breaks

Calls that add events, strict or not and at any position, keep the map intact: entries stay as they
are, methods stand under IDs of their own, and every path of a compiled event is in the map. -/

namespace TableGateway.Compile

/-! ## The invariant -/

/-- A result holds what was given and, beyond that, exactly the methods and the path resources of
its compiled events. -/
structure Intact (api : Api) (given : ResourceMap) (result : Result) : Prop where
  objects : result.resources.Objects
  kept : ∀ key value, Entries.get? given key = some value →
    Entries.get? result.resources key = some value
  distinct : result.methodIds.Nodup
  fresh : ∀ id ∈ result.methodIds, id ∉ Entries.keys given
  methods : ∀ compiled ∈ result.compiled,
    compiled.logicalId = compiled.event.methodLogicalId ∧
      ∃ method, MethodResource.ofEvent api compiled.event = .ok method ∧
        Entries.get? result.resources compiled.logicalId = some (.method method)
  paths : ∀ event ∈ result.events, ∀ entry ∈ Route.resources api event.path,
    ∃ held, Entries.get? result.resources entry.1 = some held ∧
      Json.Same held.toJson entry.2.toJson
  origin : ∀ key value, Entries.get? result.resources key = some value →
    Entries.get? given key = some value ∨ key ∈ result.methodIds ∨
      ∃ event ∈ result.events, ∃ resource,
        (key, resource) ∈ Route.resources api event.path ∧ value = .path resource

theorem Intact.start (api : Api) {given : ResourceMap} (h : given.Objects) :
    Intact api given { resources := given } where
  objects := h
  kept := fun _ _ hg => hg
  distinct := List.nodup_nil
  fresh := by simp [Result.methodIds]
  methods := by simp
  paths := by simp [Result.events]
  origin := fun _ _ hg => Or.inl hg

namespace Intact

variable {api : Api} {given : ResourceMap} {result : Result}

theorem mem_keys_of_mem_methodIds (h : Intact api given result) {id : Text}
    (hid : id ∈ result.methodIds) : id ∈ Entries.keys result.resources := by
  obtain ⟨compiled, hc, rfl⟩ := List.mem_map.mp hid
  obtain ⟨-, method, -, hg⟩ := h.methods compiled hc
  exact Entries.mem_keys_of_get? hg

theorem mem_keys_of_given (h : Intact api given result) {key : Text}
    (hk : key ∈ Entries.keys given) : key ∈ Entries.keys result.resources := by
  obtain ⟨value, hg⟩ := Entries.exists_get?_of_mem_keys hk
  exact Entries.mem_keys_of_get? (h.kept key value hg)

/-! ## One step -/

/-- Skipping an event changes neither the map nor what is compiled. -/
theorem withSkipped (h : Intact api given result) (index : Int) (event : Event)
    (failure : Failure) : Intact api given (Compile.withSkipped result index event failure) :=
  ⟨h.objects, h.kept, h.distinct, h.fresh, h.methods, h.paths, h.origin⟩

end Intact

section Adding

variable {api : Api} {result : Result} {event : Event} {method : MethodResource} (index : Int)

theorem resources_withEvent (ho : result.resources.Objects)
    (ha : Addable api result.resources event method) :
    (withEvent result index event (brought api result.resources event method)).resources =
      result.resources ++ brought api result.resources event method :=
  merge_brought ho ha

theorem methodIds_withEvent (more : ResourceMap) :
    (withEvent result index event more).methodIds =
      result.methodIds ++ [event.methodLogicalId] := by
  simp [withEvent, Result.methodIds]

theorem events_withEvent (more : ResourceMap) :
    (withEvent result index event more).events = result.events ++ [event] := by
  simp [withEvent, Result.events]

/-- An entry that is there stays as it is. -/
theorem get?_withEvent_of_get? (ho : result.resources.Objects)
    (ha : Addable api result.resources event method) {key : Text} {value : Resource}
    (hg : Entries.get? result.resources key = some value) :
    Entries.get?
      (withEvent result index event (brought api result.resources event method)).resources key =
        some value := by
  rw [resources_withEvent index ho ha, Entries.get?_append, hg]
  rfl

/-- What an event brings is found afterwards. -/
theorem get?_withEvent_of_mem (ho : result.resources.Objects)
    (ha : Addable api result.resources event method) {key : Text} {value : Resource}
    (hk : key ∉ Entries.keys result.resources)
    (hm : (key, value) ∈ brought api result.resources event method) :
    Entries.get?
      (withEvent result index event (brought api result.resources event method)).resources key =
        some value := by
  have hb := Entries.get?_of_mem (nodup_keys_brought api result.resources event method) hm
  rw [resources_withEvent index ho ha, Entries.get?_append, Entries.get?_eq_none_iff.mpr hk, hb]
  rfl

/-- Every resource of the path of an added event is found afterwards. -/
theorem get?_withEvent_of_path (ho : result.resources.Objects)
    (ha : Addable api result.resources event method) {entry : Text × PathResource}
    (he : entry ∈ Route.resources api event.path) :
    ∃ held, Entries.get?
      (withEvent result index event (brought api result.resources event method)).resources entry.1 =
        some held ∧ Json.Same held.toJson entry.2.toJson := by
  cases hg : Entries.get? result.resources entry.1 with
  | some held =>
      refine ⟨held, get?_withEvent_of_get? index ho ha hg, ?_⟩
      exact ha.agrees entry he held (by rw [held?_eq_get? ho, hg])
  | none =>
      refine ⟨.path entry.2, get?_withEvent_of_mem index ho ha ?_ ?_, .refl _⟩
      · exact Entries.get?_eq_none_iff.mp hg
      · apply List.mem_append_left
        exact mem_missing.mpr ⟨by rw [held?_eq_get? ho, hg], entry.2, he, rfl⟩

end Adding

namespace Intact

variable {api : Api} {given : ResourceMap} {result : Result}

theorem withEvent (h : Intact api given result) (index : Int) {event : Event}
    {method : MethodResource} (ha : Addable api result.resources event method) :
    Intact api given
      (Compile.withEvent result index event (brought api result.resources event method)) where
  objects := by
    rw [resources_withEvent index h.objects ha]
    exact objects_brought event method h.objects
  kept := fun key value hg => get?_withEvent_of_get? index h.objects ha (h.kept key value hg)
  distinct := by
    have hid : event.methodLogicalId ∉ result.methodIds :=
      fun hm => ha.free (h.mem_keys_of_mem_methodIds hm)
    rw [methodIds_withEvent]
    simpa using h.distinct.concat hid
  fresh := by
    intro id hid
    rw [methodIds_withEvent, List.mem_append, List.mem_singleton] at hid
    rcases hid with hid | rfl
    · exact h.fresh id hid
    · exact fun hk => ha.free (h.mem_keys_of_given hk)
  methods := by
    intro compiled hc
    rcases List.mem_append.mp hc with hc | hc
    · obtain ⟨hid, made, hm, hg⟩ := h.methods compiled hc
      exact ⟨hid, made, hm, get?_withEvent_of_get? index h.objects ha hg⟩
    · obtain rfl := List.mem_singleton.mp hc
      refine ⟨rfl, method, ha.made, get?_withEvent_of_mem index h.objects ha ha.free ?_⟩
      simp [brought]
  paths := by
    intro other ho entry he
    rw [events_withEvent, List.mem_append, List.mem_singleton] at ho
    rcases ho with ho | rfl
    · obtain ⟨held, hg, hs⟩ := h.paths other ho entry he
      exact ⟨held, get?_withEvent_of_get? index h.objects ha hg, hs⟩
    · exact get?_withEvent_of_path index h.objects ha he
  origin := by
    intro key value hg
    rw [methodIds_withEvent, events_withEvent]
    rw [resources_withEvent index h.objects ha, Entries.get?_append, Option.or_eq_some_iff] at hg
    rcases hg with hg | ⟨-, hg⟩
    · rcases h.origin key value hg with hk | hk | ⟨other, ho, hk⟩
      · exact Or.inl hk
      · exact Or.inr (Or.inl (List.mem_append_left _ hk))
      · exact Or.inr (Or.inr ⟨other, List.mem_append_left _ ho, hk⟩)
    · rcases List.mem_append.mp (Entries.mem_of_get? hg) with hm | hm
      · obtain ⟨-, resource, hr, rfl⟩ := mem_missing.mp hm
        exact Or.inr (Or.inr ⟨event, by simp, resource, hr, rfl⟩)
      · obtain ⟨rfl, -⟩ := Prod.mk.inj (List.mem_singleton.mp hm)
        exact Or.inr (Or.inl (by simp))

theorem addEvent (h : Intact api given result) {strict : Bool} {index : Int} {event : Event}
    {next : Result} (hn : (Compile.addEvent api strict result index event).outcome = .ok next) :
    Intact api given next := by
  rcases addEvent_cases hn with ⟨method, ha, rfl⟩ | ⟨failure, -, rfl⟩
  · exact h.withEvent index ha
  · exact h.withSkipped index event failure

end Intact

/-! ## Runs of calls -/

/-- A call that adds an event, with its own position and strictness. -/
structure Call where
  strict : Bool
  index : Int
  event : Event
  deriving DecidableEq

/-- An event that reads one user by the ID in the path. -/
def readUser : Event where
  method := "get"
  path := "users/{id}"
  action := .known .getItem
  tableName := .str "Users"

/-- The result after a call; a call that fails leaves it as it was. -/
def Result.after (api : Api) (result : Result) (call : Call) : Result :=
  match (addEvent api call.strict result call.index call.event).outcome with
  | .ok next => next
  | .error _ => result

def Result.afterAll (api : Api) (result : Result) (calls : List Call) : Result :=
  calls.foldl (Result.after api) result

theorem Intact.after {api : Api} {given : ResourceMap} {result : Result}
    (h : Intact api given result) (call : Call) : Intact api given (result.after api call) := by
  unfold Result.after
  cases hn : (Compile.addEvent api call.strict result call.index call.event).outcome with
  | ok next => exact h.addEvent hn
  | error failure => exact h

theorem Intact.afterAll {api : Api} {given : ResourceMap} {result : Result}
    (h : Intact api given result) (calls : List Call) :
    Intact api given (result.afterAll api calls) := by
  induction calls generalizing result with
  | nil => exact h
  | cons call rest ih => exact ih (h.after call)

/-- No call changes an entry that is there. -/
theorem get?_after {api : Api} {result : Result} (ho : result.resources.Objects) (call : Call)
    {key : Text} {value : Resource} (hg : Entries.get? result.resources key = some value) :
    Entries.get? (result.after api call).resources key = some value := by
  unfold Result.after
  cases hn : (addEvent api call.strict result call.index call.event).outcome with
  | ok next =>
      rcases addEvent_cases hn with ⟨method, ha, rfl⟩ | ⟨failure, -, rfl⟩
      · exact get?_withEvent_of_get? call.index ho ha hg
      · exact hg
  | error failure => exact hg

theorem get?_afterAll {api : Api} {given : ResourceMap} {result : Result}
    (h : Intact api given result) (calls : List Call) {key : Text} {value : Resource}
    (hg : Entries.get? result.resources key = some value) :
    Entries.get? (result.afterAll api calls).resources key = some value := by
  induction calls generalizing result with
  | nil => exact hg
  | cons call rest ih => exact ih (h.after call) (get?_after h.objects call hg)

/-- Whatever calls are made, every result on the way is intact, and no later call changes an entry
that is there. -/
theorem calls_keep_intact (api : Api) {given : ResourceMap} (hgiven : given.Objects)
    (calls more : List Call) :
    Intact api given (Result.afterAll api { resources := given } calls) ∧
      ∀ key value,
        Entries.get? (Result.afterAll api { resources := given } calls).resources key = some value →
        Entries.get? (Result.afterAll api { resources := given } (calls ++ more)).resources key =
          some value := by
  have hi := (Intact.start api hgiven).afterAll calls
  refine ⟨hi, ?_⟩
  intro key value hg
  have happend : Result.afterAll api { resources := given } (calls ++ more) =
      (Result.afterAll api { resources := given } calls).afterAll api more :=
    List.foldl_append
  rw [happend]
  exact get?_afterAll hi more hg

/-- On top of the stack's own API, a strict call that fails comes between two others: the first one
compiles its event, and the last one leaves its event out with an error. -/
theorem calls_keep_intact_readUser :
    (ResourceMap.ownApi (.str "users-api")).Objects ∧
      (Compile.addEvent Api.own true
        (Result.afterAll Api.own { resources := .ownApi (.str "users-api") } [⟨false, 0, readUser⟩])
        1 readUser).outcome = .error (.rejected (.methodTaken "ApiGatewayMethodUsersIdVarGet"
          "users/{id}" "get")) ∧
      (Result.afterAll Api.own { resources := .ownApi (.str "users-api") }
        [⟨false, 0, readUser⟩, ⟨true, 1, readUser⟩]).events = [readUser] ∧
      (Result.afterAll Api.own { resources := .ownApi (.str "users-api") }
        [⟨false, 0, readUser⟩, ⟨true, 1, readUser⟩, ⟨false, 7, readUser⟩]).errors =
          [⟨7, .rejected (.methodTaken "ApiGatewayMethodUsersIdVarGet" "users/{id}" "get")⟩] ∧
      Intact Api.own (.ownApi (.str "users-api"))
        (Result.afterAll Api.own { resources := .ownApi (.str "users-api") }
          [⟨false, 0, readUser⟩, ⟨true, 1, readUser⟩]) ∧
      ∀ key value,
        Entries.get? (Result.afterAll Api.own { resources := .ownApi (.str "users-api") }
          [⟨false, 0, readUser⟩, ⟨true, 1, readUser⟩]).resources key = some value →
        Entries.get? (Result.afterAll Api.own { resources := .ownApi (.str "users-api") }
          ([⟨false, 0, readUser⟩, ⟨true, 1, readUser⟩] ++ [⟨false, 7, readUser⟩])).resources key =
            some value :=
  ⟨objects_ownApi _, by decide +kernel, by decide +kernel, by decide +kernel,
    calls_keep_intact Api.own (objects_ownApi _) _ _⟩

end TableGateway.Compile
