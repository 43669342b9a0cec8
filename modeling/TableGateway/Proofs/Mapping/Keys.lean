import Mathlib.Data.List.Flatten
import Mathlib.Data.List.Infix
import TableGateway.Mapping.Request
import TableGateway.Proofs.Entries

/-! # Keys in templates

A key is in the default template of an event when its source is populated, with its clause and the
values of its slots. Of a key without such a source nothing is there. -/

namespace TableGateway

/-! ## Sources -/

/-- Whether a source says where its key comes from: a path parameter, a query parameter, or a name
with a value. -/
def KeySource.Populated (source : KeySource) : Prop :=
  source.pathParam.truthy = true ∨ source.queryStringParam.truthy = true ∨
    source.name.truthy = true ∧ source.value.truthy = true

instance (source : KeySource) : Decidable source.Populated :=
  inferInstanceAs (Decidable (_ ∨ _ ∨ _ ∧ _))

theorem KeySource.isSome_resolve?_iff (source : KeySource) :
    source.resolve?.isSome = true ↔ source.Populated := by
  unfold resolve? Populated
  by_cases hpath : source.pathParam.truthy = true
  · simp [hpath]
  · by_cases hquery : source.queryStringParam.truthy = true
    · simp [hpath, hquery]
    · simp [hpath, hquery]

namespace Event

/-- Whether a key is given with a source that is not populated. -/
def LeavesOut (event : Event) (role : KeyRole) : Prop :=
  ∃ source ∈ event.keySource role, ¬ source.Populated

instance (event : Event) (role : KeyRole) : Decidable (event.LeavesOut role) :=
  inferInstanceAs (Decidable (∃ source ∈ event.keySource role, ¬ source.Populated))

variable (event : Event) (role : KeyRole)

/-- A key has an attribute when it is given and not left out. -/
theorem isSome_keyAttribute_iff :
    (event.keyAttribute role).isSome = true ↔
      (event.keySource role).isSome = true ∧ ¬ event.LeavesOut role := by
  unfold keyAttribute LeavesOut
  cases event.keySource role with
  | none => simp
  | some source => simp [source.isSome_resolve?_iff]

/-- The keys that a compilation warns about are those that are left out. -/
theorem unresolvedKeys_eq :
    event.unresolvedKeys = [KeyRole.hash, KeyRole.range].filter (event.LeavesOut ·) := by
  unfold unresolvedKeys
  apply List.filter_congr
  intro role _
  have hiff := event.isSome_keyAttribute_iff role
  cases hs : event.keySource role with
  | none => simp [LeavesOut, hs]
  | some source =>
      cases hk : event.keyAttribute role with
      | none => simpa [hs, hk] using hiff
      | some k => simpa [hs, hk] using hiff

end Event

namespace Mapping

/-! ## Clauses and slots -/

/-- The clause of a key as it is written in a template. -/
def clauseText (role : KeyRole) : Text := (keyClause role).flatMap Segment.written

/-- The names of the slots in the clause of a key. -/
def slotNames (role : KeyRole) : List Text :=
  [role.label ++ "Key", role.label ++ "AttributeType", role.label ++ "AttributeValue"]

/-- Whether a template has the clause of a key and fills its slots from an attribute. -/
structure Carries (template : Template) (role : KeyRole) (k : KeyAttribute) : Prop where
  clause : clauseText role <:+: template.text
  values : ∀ entry ∈ k.values role.label,
    Entries.get? template.values entry.1 = some entry.2

/-- Whether a template has neither the clause of a key nor a value for any of its slots. -/
structure Omits (template : Template) (role : KeyRole) : Prop where
  clause : ¬ clauseText role <:+: template.text
  values : ∀ name ∈ slotNames role, name ∉ Entries.keys template.values

theorem Omits.not_carries {template : Template} {role : KeyRole} (h : Omits template role)
    (k : KeyAttribute) : ¬ Carries template role k :=
  fun hc => h.clause hc.clause

/-- The letter that the clause of a key has and the rest of a template has not. -/
def initial : KeyRole → CodePoint
  | .hash => 'H'
  | .range => 'R'

theorem initial_mem_clauseText (role : KeyRole) : initial role ∈ clauseText role := by
  cases role <;> decide

theorem initial_not_mem_keyClause {role other : KeyRole} (h : other ≠ role) :
    ∀ segment ∈ keyClause other, initial role ∉ segment.written := by
  cases role <;> cases other <;> first | exact absurd rfl h | decide

/-! ## Segments -/

section Segments

variable {event : Event} {role : KeyRole}

theorem mem_resolvedKeys {k : KeyAttribute} :
    (role, k) ∈ resolvedKeys event ↔ event.keyAttribute role = some k := by
  have hrole : role ∈ [KeyRole.hash, KeyRole.range] := by cases role <;> decide
  simp only [resolvedKeys, List.mem_filterMap, Option.map_eq_some_iff, Prod.mk.injEq]
  constructor
  · rintro ⟨other, -, found, hf, rfl, rfl⟩
    exact hf
  · intro h
    exact ⟨role, hrole, k, h, rfl, rfl⟩

theorem mem_intersperse {α : Type} {separator item : α} {items : List α} :
    item ∈ items.intersperse separator ↔ item ∈ items ∨ item = separator ∧ 2 ≤ items.length := by
  induction items with
  | nil => simp
  | cons first rest ih =>
      cases rest with
      | nil => simp
      | cons second rest =>
          rw [List.intersperse_cons_cons]
          simp only [List.mem_cons, ih, List.length_cons]
          have hlength : 2 ≤ rest.length + 1 + 1 := by omega
          tauto

/-- The segments of all templates that belong to no key. -/
def frame : List Segment :=
  tableClause ++ [.text "\"Key\":\x7b", .text "\"Item\": \x7b", .text ",", .text bodyLoop,
    .text ",\"ConditionExpression\": \"", .slot "ConditionExpression", .text "\"", .text "\x7d",
    .text "\x7d\x7d"]

theorem initial_not_mem_frame (role : KeyRole) :
    ∀ segment ∈ frame, initial role ∉ segment.written := by
  have hfree : ∀ segment ∈ frame, ∀ point ∈ segment.written,
      point ≠ initial .hash ∧ point ≠ initial .range := by
    decide +kernel
  intro segment hs hm
  have h := hfree segment hs _ hm
  cases role with
  | hash => exact h.1 rfl
  | range => exact h.2 rfl

theorem conditionClause_subset (event : Event) : conditionClause event ⊆ frame := by
  unfold conditionClause frame
  split <;> simp

/-- The clause of a key that resolves is part of every template of its event. -/
theorem clause_infix_segments (action : Action) {key : KeyRole × KeyAttribute}
    (h : key ∈ resolvedKeys event) :
    keyClause key.1 <:+: (requestTemplateOf event action).segments := by
  have hobject : keyClause key.1 <:+: keyObject event :=
    List.infix_of_mem_flatten (mem_intersperse.mpr (Or.inl (List.mem_map_of_mem h)))
  have hitem : keyClause key.1 <:+:
      (resolvedKeys event).flatMap fun key => keyClause key.1 ++ [.text ","] :=
    (List.prefix_append _ _).isInfix.trans (List.infix_of_mem_flatten (List.mem_map_of_mem h))
  cases action with
  | putItem =>
      exact ((hitem.trans (List.infix_append _ _ _)).trans (List.prefix_append _ _).isInfix).trans
        (List.prefix_append _ _).isInfix
  | getItem => exact hobject.trans (List.infix_append _ _ _)
  | deleteItem =>
      exact ((hobject.trans (List.infix_append _ _ _)).trans (List.prefix_append _ _).isInfix).trans
        (List.prefix_append _ _).isInfix

/-- The clauses of the keys that resolve. -/
def clauses (event : Event) : List Segment :=
  (resolvedKeys event).flatMap fun key => keyClause key.1

theorem keyObject_subset (event : Event) : keyObject event ⊆ frame ++ clauses event := by
  intro segment h
  obtain ⟨part, hpart, hs⟩ := List.mem_flatten.mp h
  rcases mem_intersperse.mp hpart with hclause | ⟨rfl, -⟩
  · obtain ⟨key, hkey, rfl⟩ := List.mem_map.mp hclause
    exact List.mem_append_right frame (List.mem_flatMap.mpr ⟨key, hkey, hs⟩)
  · rw [List.mem_singleton.mp hs]
    simp [frame]

/-- Templates are made of fixed segments and the clauses of the keys that resolve. -/
theorem segments_subset (event : Event) (action : Action) :
    (requestTemplateOf event action).segments ⊆ frame ++ clauses event := by
  have hfixed : ∀ fixed ⊆ frame, fixed ⊆ frame ++ clauses event :=
    fun _ h => List.subset_append_of_subset_left _ h
  have htable := hfixed tableClause (List.subset_append_left _ _)
  have hcondition := hfixed (conditionClause event) (conditionClause_subset event)
  have hobject := keyObject_subset event
  have hitem : (resolvedKeys event).flatMap (fun key => keyClause key.1 ++ [.text ","]) ⊆
      frame ++ clauses event := by
    intro segment h
    obtain ⟨key, hkey, hs⟩ := List.mem_flatMap.mp h
    rcases List.mem_append.mp hs with hs | hs
    · exact List.mem_append_right frame (List.mem_flatMap.mpr ⟨key, hkey, hs⟩)
    · rw [List.mem_singleton.mp hs]
      simp [frame]
  have hone : ∀ segment ∈ frame, [segment] ⊆ frame ++ clauses event :=
    fun _ h => hfixed _ (List.cons_subset.mpr ⟨h, List.nil_subset _⟩)
  cases action with
  | putItem =>
      simp only [requestTemplateOf, putItem, List.append_subset]
      exact ⟨⟨⟨⟨⟨htable, hone _ (by simp [frame])⟩, hitem⟩, hone _ (by simp [frame])⟩, hcondition⟩,
        hone _ (by simp [frame])⟩
  | getItem =>
      simp only [requestTemplateOf, getItem, List.append_subset]
      exact ⟨⟨⟨htable, hone _ (by simp [frame])⟩, hobject⟩, hone _ (by simp [frame])⟩
  | deleteItem =>
      simp only [requestTemplateOf, deleteItem, List.append_subset]
      exact ⟨⟨⟨⟨⟨htable, hone _ (by simp [frame])⟩, hobject⟩, hone _ (by simp [frame])⟩,
        hcondition⟩, hone _ (by simp [frame])⟩

theorem initial_not_mem_text (action : Action) (h : event.keyAttribute role = none) :
    initial role ∉ (requestTemplateOf event action).text := by
  intro hm
  obtain ⟨segment, hs, hw⟩ := List.mem_flatMap.mp hm
  rcases List.mem_append.mp (segments_subset event action hs) with hframe | hclause
  · exact initial_not_mem_frame role segment hframe hw
  · obtain ⟨⟨other, k⟩, hkey, hclause⟩ := List.mem_flatMap.mp hclause
    have hne : other ≠ role := by
      rintro rfl
      rw [mem_resolvedKeys, h] at hkey
      cases hkey
    exact initial_not_mem_keyClause hne segment hclause hw

/-! ## Values -/

theorem map_fst_resolvedKeys (event : Event) :
    (resolvedKeys event).map Prod.fst =
      [KeyRole.hash, KeyRole.range].filter fun role => (event.keyAttribute role).isSome := by
  unfold resolvedKeys
  rw [List.map_filterMap, ← List.filterMap_eq_filter]
  congr 1
  funext role
  cases h : event.keyAttribute role with
  | none => simp [Option.guard, h]
  | some k => simp [Option.guard, h]

theorem keys_keyValues (event : Event) :
    Entries.keys (keyValues event) = ((resolvedKeys event).map Prod.fst).flatMap slotNames := by
  unfold keyValues Entries.keys
  rw [List.map_flatMap, List.flatMap_map]
  rfl

/-- The slots of a template are the one of the table, those of the keys that resolve, and maybe the
one of the condition. -/
theorem keys_values_sublist (event : Event) (action : Action) :
    (Entries.keys (requestTemplateOf event action).values).Sublist
      ("TableName" :: (((resolvedKeys event).map Prod.fst).flatMap slotNames ++
        [Text.ofString "ConditionExpression"])) := by
  have hcondition : (Entries.keys (conditionValue event)).Sublist
      [Text.ofString "ConditionExpression"] := by
    unfold conditionValue
    split
    · exact List.nil_sublist _
    · exact List.Sublist.refl _
  rw [← keys_keyValues]
  cases action with
  | putItem | deleteItem =>
      rw [requestTemplateOf]
      dsimp only [putItem, deleteItem]
      rw [Entries.keys_cons, Entries.keys_append]
      exact ((List.Sublist.refl _).append hcondition).cons_cons _
  | getItem => exact (List.sublist_append_left _ _).cons_cons _

theorem nodup_keys_values (event : Event) (action : Action) :
    (Entries.keys (requestTemplateOf event action).values).Nodup := by
  have hroles : ((resolvedKeys event).map Prod.fst).Sublist [KeyRole.hash, KeyRole.range] := by
    rw [map_fst_resolvedKeys]
    exact List.filter_sublist
  have hslots := (hroles.flatMap slotNames).append_right [Text.ofString "ConditionExpression"]
  refine ((keys_values_sublist event action).trans (hslots.cons_cons _)).nodup ?_
  decide

theorem keyValues_subset (event : Event) (action : Action) :
    keyValues event ⊆ (requestTemplateOf event action).values := by
  cases action with
  | putItem | deleteItem =>
      exact List.Subset.trans (List.subset_append_left _ _) (List.subset_cons_self _ _)
  | getItem => exact List.subset_cons_self _ _

theorem slotNames_disjoint {role other : KeyRole} (h : other ≠ role) :
    ∀ name ∈ slotNames role, name ∉ slotNames other := by
  cases role <;> cases other <;> first | exact absurd rfl h | decide

theorem fixed_not_mem_slotNames (role : KeyRole) :
    ∀ name ∈ slotNames role, name ≠ "TableName" ∧ name ≠ "ConditionExpression" := by
  cases role <;> decide

end Segments

/-! ## Keys -/

/-- A template carries a key that resolves. -/
theorem carries {event : Event} {role : KeyRole} {k : KeyAttribute} (action : Action)
    (h : event.keyAttribute role = some k) : Carries (requestTemplateOf event action) role k := by
  have hkey := mem_resolvedKeys.mpr h
  refine ⟨(clause_infix_segments action hkey).flatMap Segment.written, ?_⟩
  intro entry hentry
  have hm : entry ∈ keyValues event := List.mem_flatMap.mpr ⟨(role, k), hkey, hentry⟩
  exact Entries.get?_of_mem (nodup_keys_values event action) (keyValues_subset event action hm)

/-- A template omits a key that does not resolve. -/
theorem omits {event : Event} {role : KeyRole} (action : Action)
    (h : event.keyAttribute role = none) : Omits (requestTemplateOf event action) role := by
  refine ⟨?_, ?_⟩
  · intro hclause
    exact initial_not_mem_text action h (hclause.subset (initial_mem_clauseText role))
  · intro name hname hkeys
    have hm := (keys_values_sublist event action).subset hkeys
    obtain ⟨htable, hcondition⟩ := fixed_not_mem_slotNames role name hname
    rw [List.mem_cons, List.mem_append, List.mem_flatMap, List.mem_singleton] at hm
    rcases hm with rfl | ⟨other, hother, hslot⟩ | rfl
    · exact htable rfl
    · have hne : other ≠ role := by
        rintro rfl
        rw [map_fst_resolvedKeys, List.mem_filter, h] at hother
        exact absurd hother.2 (by simp)
      exact slotNames_disjoint hne name hname hslot
    · exact hcondition rfl

/-- A template carries nothing of a key that does not resolve. -/
theorem exists_carries_iff (event : Event) (role : KeyRole) (action : Action) :
    (∃ k, Carries (requestTemplateOf event action) role k) ↔
      (event.keyAttribute role).isSome = true := by
  cases h : event.keyAttribute role with
  | none => simpa using fun k => (omits action h).not_carries k
  | some k => simpa using ⟨k, carries action h⟩

end Mapping

end TableGateway
