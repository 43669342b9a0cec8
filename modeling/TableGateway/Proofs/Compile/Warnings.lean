import TableGateway.Proofs.Compile.Verdicts
import TableGateway.Proofs.Mapping.Keys
import TableGateway.Proofs.Method.Making

/-! # Warnings and templates

A compilation warns about the keys that are left out, of all its events. In the template of an event
that is compiled exactly the other keys that are given stand. -/

namespace TableGateway.Compile

/-- Whether a warning of a result names a key of the event at an index. -/
def Result.WarnsOf (result : Result) (index : Int) (role : KeyRole) : Prop :=
  ∃ warning ∈ result.warnings, warning.toJson.field "index" = .int index ∧
    warning.toJson.field "key" = .str role.fieldName

theorem Result.warnsOf_iff {result : Result} {index : Int} {role : KeyRole} :
    result.WarnsOf index role ↔ ⟨index, role⟩ ∈ result.warnings := by
  constructor
  · rintro ⟨⟨other, found⟩, hm, hindex, hkey⟩
    have hi : other = index := Json.int.inj hindex
    have hfield : found.fieldName = role.fieldName := Json.str.inj hkey
    have hrole : found = role := by
      revert hfield
      cases found <;> cases role <;> decide
    rwa [hi, hrole] at hm
  · intro hm
    exact ⟨_, hm, rfl, rfl⟩

/-- Whether a template has a key of its event as the warnings have it: the clause and the values of
a key that is given and not warned about, and otherwise nothing of it. -/
structure Stands (result : Result) (index : Int) (event : Event) (template : Mapping.Template)
    (role : KeyRole) : Prop where
  carried_iff : (∃ k, Mapping.Carries template role k) ↔
    (event.keySource role).isSome = true ∧ ¬ result.WarnsOf index role
  own : ∀ k, event.keyAttribute role = some k → Mapping.Carries template role k
  omitted : ¬ ((event.keySource role).isSome = true ∧ ¬ result.WarnsOf index role) →
    Mapping.Omits template role

/-- An event that is compiled can be made into a method. -/
theorem makeable_of_mem_events {api : Api} {strict : Bool} {events : List Event}
    {given : ResourceMap} {result : Result}
    (h : (compile api strict events given).outcome = .ok result) :
    ∀ event ∈ result.events, event.Makeable := by
  refine addEvents_preserves (P := fun result => ∀ event ∈ result.events, event.Makeable) ?_ ?_
    (addEvents_of_compile h)
  · intro result next index event hall hn other hother
    rcases addEvent_cases hn with ⟨method, ha, rfl⟩ | ⟨failure, -, rfl⟩
    · rw [events_withEvent, List.mem_append, List.mem_singleton] at hother
      rcases hother with hother | rfl
      · exact hall other hother
      · exact MethodResource.ofEvent_ok_iff.mp ⟨method, ha.made⟩
    · exact hall other hother
  · intro event hm
    cases hm

section Warnings

variable (api : Api) (events : List Event) (given : ResourceMap)

/-- The warnings of a compilation are those on the keys that its events leave out. -/
theorem warnings_eq :
    (settleAll api { resources := given } 0 events).warnings =
      events.zipIdx.flatMap fun indexed =>
        ([KeyRole.hash, KeyRole.range].filter (indexed.1.LeavesOut ·)).map fun role =>
          ⟨indexed.2, role⟩ := by
  have hwarnings := warnings_settleAll api { resources := given } events 0
  rw [Int.natCast_zero, List.nil_append] at hwarnings
  rw [hwarnings]
  congr 1
  funext indexed
  rw [warningsOf, Event.unresolvedKeys_eq]

theorem warnsOf_iff_leavesOut {i : Nat} {event : Event} (h : events[i]? = some event)
    (role : KeyRole) :
    (settleAll api { resources := given } 0 events).WarnsOf i role ↔ event.LeavesOut role := by
  have hrole : role ∈ [KeyRole.hash, KeyRole.range] := by cases role <;> decide
  rw [Result.warnsOf_iff, warnings_eq]
  simp only [List.mem_flatMap, List.mem_map, List.mem_filter, decide_eq_true_eq, Prod.exists,
    List.mem_zipIdx_iff_getElem?, Warning.mk.injEq, Int.natCast_inj]
  constructor
  · rintro ⟨other, j, hj, found, ⟨-, hleft⟩, rfl, rfl⟩
    rw [h, Option.some_inj] at hj
    rwa [hj]
  · intro hleft
    exact ⟨event, i, h, role, ⟨hrole, hleft⟩, rfl, rfl⟩

/-- The keys of an event stand in each of its templates as the warnings have it. -/
theorem stands {i : Nat} {event : Event} (h : events[i]? = some event) (action : Action)
    (role : KeyRole) :
    Stands (settleAll api { resources := given } 0 events) i event
      (Mapping.requestTemplateOf event action) role := by
  have hresolves : (event.keyAttribute role).isSome = true ↔
      (event.keySource role).isSome = true ∧
        ¬ (settleAll api { resources := given } 0 events).WarnsOf i role := by
    rw [warnsOf_iff_leavesOut api events given h, event.isSome_keyAttribute_iff]
  refine ⟨(Mapping.exists_carries_iff event role action).trans hresolves,
    fun k => Mapping.carries action, ?_⟩
  intro hnot
  apply Mapping.omits action
  rwa [← hresolves, Option.not_isSome_iff_eq_none] at hnot

/-- The warnings of a compilation name the keys that are left out, and of these alone nothing stands
in the template of an event that is compiled. -/
theorem compile_warns :
    ∃ result, (compile api false events given).outcome = .ok result ∧
      result.warnings = (events.zipIdx.flatMap fun indexed =>
        ([KeyRole.hash, KeyRole.range].filter (indexed.1.LeavesOut ·)).map fun role =>
          ⟨indexed.2, role⟩) ∧
      (∀ warning ∈ result.warnings,
        Shows warning.toJson warning.index "UNRESOLVED_KEY_SPEC" ∧
          warning.toJson.field "key" = .str warning.role.fieldName) ∧
      ∀ (i : Nat) event, events[i]? = some event → event ∈ result.events →
        ∃ template, Mapping.requestTemplate event = .ok template ∧
          ∀ role, Stands result i event template role := by
  have hcompile := compile_lenient api events given
  refine ⟨_, hcompile, warnings_eq api events given, fun _ _ => ⟨⟨rfl, rfl⟩, rfl⟩, ?_⟩
  intro i event hi hevent
  obtain ⟨action, ha⟩ := (makeable_of_mem_events hcompile event hevent).action
  refine ⟨Mapping.requestTemplateOf event action, ?_, stands api events given hi action⟩
  rw [Mapping.requestTemplate, ha]

end Warnings

end TableGateway.Compile
