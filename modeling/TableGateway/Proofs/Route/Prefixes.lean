import Mathlib.Data.List.Infix
import TableGateway.Proofs.Entries
import TableGateway.Proofs.Route.LogicalId

/-! # The resources of a path

Every prefix of a path is written under its ID, parents first. IDs are distinct as long as every
part below the first has a name; a part without a name is written over its own parent. -/

namespace TableGateway.Route

/-! ## One entry per prefix -/

/-- The entry of the prefix that ends with `part` below `parents`. -/
def prefixEntry (api : Api) (parents : List Text) (part : Text) : Text × PathResource :=
  (partsId (parents ++ [part]), ⟨partsRef api parents, part, api.restApiId⟩)

/-- The resources of all prefixes of a list of parts under their IDs. -/
def partsResources (api : Api) (parts : List Text) : List (Text × PathResource) :=
  Entries.merge [] ((chainFrom [] parts).map fun step => prefixEntry api step.1 step.2)

theorem chainFrom_concat {α : Type} (before items : List α) (item : α) :
    chainFrom before (items ++ [item]) = chainFrom before items ++ [(before ++ items, item)] := by
  induction items generalizing before with
  | nil => simp [chainFrom]
  | cons first rest ih => simp [chainFrom, ih]

/-- A prefix in the chain of a list makes up the list with its item and the items that follow. -/
theorem mem_chainFrom {α : Type} {before items parents : List α} {item : α}
    (h : (parents, item) ∈ chainFrom before items) :
    ∃ rest, before ++ items = parents ++ item :: rest := by
  induction items generalizing before with
  | nil => simp [chainFrom] at h
  | cons first rest ih =>
      simp only [chainFrom, List.mem_cons, Prod.mk.injEq] at h
      rcases h with ⟨rfl, rfl⟩ | h
      · exact ⟨rest, rfl⟩
      · simpa using ih h

@[simp] theorem partsResources_nil (api : Api) : partsResources api [] = [] := rfl

/-- One more part writes one more entry, over what its parents have written. -/
theorem partsResources_concat (api : Api) (parents : List Text) (part : Text) :
    partsResources api (parents ++ [part]) =
      Entries.put (partsId (parents ++ [part])) ⟨partsRef api parents, part, api.restApiId⟩
        (partsResources api parents) := by
  simp [partsResources, chainFrom_concat, prefixEntry]

theorem resources_eq (api : Api) (path : Text) :
    resources api path = partsResources api (Text.parts path) := by
  unfold resources partsResources Entries.merge
  rw [List.foldl_map]
  apply List.foldl_ext
  rintro entries ⟨parents, part⟩ hm
  obtain ⟨rest, hrest⟩ := mem_chainFrom hm
  have hparts : Text.AreParts ((parents ++ [part]) ++ rest) := by
    have hall := Text.areParts_parts path
    rw [← List.nil_append (Text.parts path), hrest] at hall
    simpa using hall
  simp only [prefixEntry, resourceAt]
  rw [resourceLogicalId_ofParts hparts.left, resourceId_ofParts api hparts.left.left]

theorem nodup_keys_partsResources (api : Api) (parts : List Text) :
    (Entries.keys (partsResources api parts)).Nodup :=
  Entries.nodup_keys_merge _ List.nodup_nil

theorem nodup_keys_resources (api : Api) (path : Text) :
    (Entries.keys (resources api path)).Nodup := by
  rw [resources_eq]
  exact nodup_keys_partsResources api _

theorem mem_keys_partsResources {api : Api} {parts : List Text} {key : Text} :
    key ∈ Entries.keys (partsResources api parts) ↔
      ∃ front, front <+: parts ∧ front ≠ [] ∧ key = partsId front := by
  induction parts using List.reverseRecOn with
  | nil => simp
  | append_singleton parents part ih =>
      rw [partsResources_concat, Entries.mem_keys_put, ih]
      constructor
      · rintro (rfl | ⟨front, hf, hne, rfl⟩)
        · exact ⟨parents ++ [part], List.prefix_rfl, by simp, rfl⟩
        · exact ⟨front, hf.trans (List.prefix_append parents [part]), hne, rfl⟩
      · rintro ⟨front, hf, hne, rfl⟩
        rcases List.prefix_concat_iff.mp hf with rfl | hf
        · exact Or.inl rfl
        · exact Or.inr ⟨front, hf, hne, rfl⟩

/-- What a path resource is: the resource of a prefix, below the reference to its parents. -/
theorem exists_prefix_of_mem {api : Api} {parts : List Text} {key : Text} {resource : PathResource}
    (h : (key, resource) ∈ partsResources api parts) :
    ∃ parents part, (parents ++ [part]) <+: parts ∧
      (key, resource) = prefixEntry api parents part := by
  have hg := Entries.get?_of_mem (nodup_keys_partsResources api parts) h
  induction parts using List.reverseRecOn with
  | nil => simp at hg
  | append_singleton parents part ih =>
      rw [partsResources_concat, Entries.get?_put] at hg
      by_cases hk : key = partsId (parents ++ [part])
      · simp only [hk, if_true, Option.some.injEq] at hg
        exact ⟨parents, part, List.prefix_rfl, by rw [hk, ← hg]; rfl⟩
      · simp only [hk, if_false] at hg
        obtain ⟨front, last, hf, he⟩ := ih (Entries.mem_of_get? hg) hg
        exact ⟨front, last, hf.trans (List.prefix_append parents [part]), he⟩

/-- Keys of path resources are IDs of paths, and so of their family. -/
theorem idFamily_of_mem_keys {api : Api} {path key : Text}
    (h : key ∈ Entries.keys (resources api path)) : idFamily key = "ApiGatewayReso" := by
  rw [resources_eq, mem_keys_partsResources] at h
  obtain ⟨front, -, -, rfl⟩ := h
  rfl

theorem methodLogicalId_not_mem_keys (api : Api) (path resourceName method : Text) :
    methodLogicalId resourceName method ∉ Entries.keys (resources api path) := by
  intro h
  have hf := idFamily_of_mem_keys h
  rw [idFamily_methodLogicalId] at hf
  exact absurd hf (by decide)

/-! ## Parts with and without names -/

/-- Whether every part below the first has a name, so that no prefix has the ID of its parent. -/
def NamedBelow (parts : List Text) : Prop := ∀ part ∈ parts.tail, partName part ≠ []

instance (parts : List Text) : Decidable (NamedBelow parts) :=
  inferInstanceAs (Decidable (∀ part ∈ parts.tail, partName part ≠ []))

theorem namedBelow_singleton (part : Text) : NamedBelow [part] := by simp [NamedBelow]

theorem namedBelow_concat {parents : List Text} (h : parents ≠ []) (part : Text) :
    NamedBelow (parents ++ [part]) ↔ NamedBelow parents ∧ partName part ≠ [] := by
  unfold NamedBelow
  rw [List.tail_append_of_ne_nil h]
  simp only [List.mem_append, List.mem_singleton]
  constructor
  · intro hall
    exact ⟨fun p hp => hall p (Or.inl hp), hall part (Or.inr rfl)⟩
  · rintro ⟨hall, hpart⟩ p (hp | rfl)
    · exact hall p hp
    · exact hpart

theorem length_partsId_le {front parts : List Text} (h : front <+: parts) :
    (partsId front).length ≤ (partsId parts).length := by
  obtain ⟨rest, rfl⟩ := h
  simp [partsId]

/-- A part with a name gets an ID that none of its parents has. -/
theorem partsId_not_mem_keys (api : Api) (parents : List Text) {part : Text}
    (h : partName part ≠ []) :
    partsId (parents ++ [part]) ∉ Entries.keys (partsResources api parents) := by
  intro hm
  obtain ⟨front, hf, -, he⟩ := mem_keys_partsResources.mp hm
  have hle := length_partsId_le hf
  have hpos := List.length_pos_iff.mpr h
  rw [← he, partsId_concat, List.length_append] at hle
  omega

end TableGateway.Route
