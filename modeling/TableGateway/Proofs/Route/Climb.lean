import Mathlib.Logic.Relation
import TableGateway.Proofs.Route.Prefixes
import TableGateway.Resource

/-! # Climbing to the root

A resource refers to its parent, and so on up to the root of the API. Where a map holds all
resources of a path, the climb passes its parts and ends at the root exactly when every part below
the first has a name; otherwise it runs into a resource that is its own parent. -/

namespace TableGateway

/-- The stack's own API, or an existing one that is given by two IDs. -/
inductive Api.Plain : Api → Prop where
  | own : Plain .own
  | imported (restApiId rootResourceId : Text) :
      Plain (.ofIds (.str restApiId) (.str rootResourceId))

/-- The root of such an API is not the reference to a resource. -/
theorem Api.Plain.ref_ne_root {api : Api} (h : api.Plain) (id : Text) :
    Intrinsic.ref id ≠ api.rootResourceId := by
  cases h with
  | own =>
      intro he
      simp only [Api.own, Intrinsic.ref, Intrinsic.getAtt, Json.obj.injEq, List.cons.injEq,
        Prod.mk.injEq] at he
      exact absurd he.1.1 (by decide)
  | imported restApiId rootResourceId => simp [Api.ofIds, Intrinsic.ref]

namespace Route

/-! ## References upwards -/

/-- The climb from a reference to the root, with the parts it passes from the root down. -/
inductive Climbs (api : Api) (resources : ResourceMap) : Json → List Text → Prop where
  | root : Climbs api resources api.rootResourceId []
  | step {id : Text} {resource : PathResource} {parents : List Text}
      (hg : Entries.get? resources id = some (.path resource))
      (h : Climbs api resources resource.parentId parents) :
      Climbs api resources (Intrinsic.ref id) (parents ++ [resource.pathPart])

/-- A resource refers to another one as its parent. -/
def Below (resources : ResourceMap) (child parent : Text) : Prop :=
  ∃ resource, Entries.get? resources child = some (.path resource) ∧
    resource.parentId = Intrinsic.ref parent

variable {api : Api} {resources : ResourceMap}

theorem ref_injective {a b : Text} (h : Intrinsic.ref a = Intrinsic.ref b) : a = b := by
  simpa [Intrinsic.ref] using h

theorem Climbs.root_inv (hapi : api.Plain) {parts : List Text}
    (h : Climbs api resources api.rootResourceId parts) : parts = [] := by
  generalize hr : api.rootResourceId = reference at h
  cases h with
  | root => rfl
  | step hg h => exact absurd hr.symm (hapi.ref_ne_root _)

theorem Climbs.ref_inv (hapi : api.Plain) {id : Text} {parts : List Text}
    (h : Climbs api resources (Intrinsic.ref id) parts) :
    ∃ resource parents, Entries.get? resources id = some (.path resource) ∧
      Climbs api resources resource.parentId parents ∧ parts = parents ++ [resource.pathPart] := by
  generalize hr : Intrinsic.ref id = reference at h
  cases h with
  | root => exact absurd hr (hapi.ref_ne_root id)
  | step hg h =>
      obtain rfl := ref_injective hr
      exact ⟨_, _, hg, h, rfl⟩

/-- A reference is climbed in one way only. -/
theorem Climbs.unique (hapi : api.Plain) {reference : Json} {parts other : List Text}
    (h : Climbs api resources reference parts) (k : Climbs api resources reference other) :
    parts = other := by
  induction h generalizing other with
  | root => exact (k.root_inv hapi).symm
  | step hg h ih =>
      obtain ⟨resource, parents, hk, hp, rfl⟩ := k.ref_inv hapi
      obtain rfl := Resource.path.inj (Option.some.inj (hg.symm.trans hk))
      rw [ih hp]

theorem Climbs.parent (hapi : api.Plain) {child parent : Text} {parts : List Text}
    (h : Climbs api resources (Intrinsic.ref child) parts) (hb : Below resources child parent) :
    ∃ parents, Climbs api resources (Intrinsic.ref parent) parents ∧
      parents.length < parts.length := by
  obtain ⟨resource, parents, hg, hc, rfl⟩ := h.ref_inv hapi
  obtain ⟨found, hf, hp⟩ := hb
  obtain rfl := Resource.path.inj (Option.some.inj (hg.symm.trans hf))
  exact ⟨parents, hp ▸ hc, by simp⟩

/-- Ancestors are climbed in fewer steps. -/
theorem Climbs.ancestor (hapi : api.Plain) {child ancestor : Text} {parts : List Text}
    (h : Climbs api resources (Intrinsic.ref child) parts)
    (hb : Relation.TransGen (Below resources) child ancestor) :
    ∃ parents, Climbs api resources (Intrinsic.ref ancestor) parents ∧
      parents.length < parts.length := by
  induction hb with
  | single hb => exact h.parent hapi hb
  | tail _ hb ih =>
      obtain ⟨parents, hc, hl⟩ := ih
      obtain ⟨grandparents, hg, hlt⟩ := hc.parent hapi hb
      exact ⟨grandparents, hg, hlt.trans hl⟩

/-- What can be climbed is not its own ancestor. -/
theorem Climbs.not_own_ancestor (hapi : api.Plain) {id : Text} {parts : List Text}
    (h : Climbs api resources (Intrinsic.ref id) parts) :
    ¬ Relation.TransGen (Below resources) id id := by
  intro hb
  obtain ⟨other, ho, hl⟩ := h.ancestor hapi hb
  rw [h.unique hapi ho] at hl
  exact lt_irrefl _ hl

/-! ## Climbing a path -/

/-- A map holds the resources of some parts as they were made. -/
def Held (api : Api) (resources : ResourceMap) (parts : List Text) : Prop :=
  ∀ entry ∈ partsResources api parts,
    Entries.get? resources entry.1 = some (.path entry.2)

namespace Held

theorem last {parents : List Text} {part : Text}
    (h : Held api resources (parents ++ [part])) :
    Entries.get? resources (partsId (parents ++ [part])) =
      some (.path ⟨partsRef api parents, part, api.restApiId⟩) := by
  have hg : Entries.get? (partsResources api (parents ++ [part])) (partsId (parents ++ [part])) =
      some ⟨partsRef api parents, part, api.restApiId⟩ := by
    rw [partsResources_concat, Entries.get?_put, if_pos rfl]
  exact h _ (Entries.mem_of_get? hg)

/-- A part with a name leaves the resources above it as they are. -/
theorem parents {parents : List Text} {part : Text}
    (h : Held api resources (parents ++ [part])) (hp : partName part ≠ []) :
    Held api resources parents := by
  rintro ⟨key, resource⟩ hm
  apply h (key, resource)
  rw [partsResources_concat]
  apply Entries.mem_of_get?
  have hne : key ≠ partsId (parents ++ [part]) := by
    rintro rfl
    exact partsId_not_mem_keys api parents hp (Entries.mem_keys_of_mem hm)
  rw [Entries.get?_put, if_neg hne]
  exact Entries.get?_of_mem (nodup_keys_partsResources api parents) hm

theorem climbs {parts : List Text} (h : Held api resources parts) (hn : NamedBelow parts) :
    Climbs api resources (partsRef api parts) parts := by
  induction parts using List.reverseRecOn with
  | nil => exact .root
  | append_singleton parents part ih =>
      rw [partsRef_of_ne_nil api (by simp)]
      apply Climbs.step h.last
      by_cases hp : parents = []
      · subst hp
        exact .root
      · obtain ⟨hnp, hpart⟩ := (namedBelow_concat hp part).mp hn
        exact ih (h.parents hpart) hnp

/-- Below a part without a name the climb comes to a resource that is its own parent: the part is
written over the resource it lies below. -/
theorem strays {parts : List Text} (h : Held api resources parts) (hn : ¬ NamedBelow parts) :
    ∃ id, Relation.ReflTransGen (Below resources) (partsId parts) id ∧ Below resources id id := by
  -- A named part only leads up to its parents, so the loop is at the last part without a name.
  induction parts using List.reverseRecOn with
  | nil => exact absurd (by simp [NamedBelow]) hn
  | append_singleton parents part ih =>
      have hp : parents ≠ [] := by
        rintro rfl
        exact hn (namedBelow_singleton part)
      have hup : Below resources (partsId (parents ++ [part])) (partsId parents) :=
        ⟨_, h.last, partsRef_of_ne_nil api hp⟩
      by_cases hpart : partName part = []
      · have hsame : partsId (parents ++ [part]) = partsId parents := by
          rw [partsId_concat, hpart, List.append_nil]
        exact ⟨partsId parents, .single hup, hsame ▸ hup⟩
      · have hnp : ¬ NamedBelow parents := fun hnp =>
          hn ((namedBelow_concat hp part).mpr ⟨hnp, hpart⟩)
        obtain ⟨id, hr, hid⟩ := ih (h.parents hpart) hnp
        exact ⟨id, .head hup hr, hid⟩

theorem not_climbs (hapi : api.Plain) {parts : List Text} (h : Held api resources parts)
    (hn : ¬ NamedBelow parts) (passed : List Text) :
    ¬ Climbs api resources (partsRef api parts) passed := by
  intro hc
  obtain ⟨id, hr, hid⟩ := h.strays hn
  have hne : parts ≠ [] := by
    rintro rfl
    exact hn (by simp [NamedBelow])
  rw [partsRef_of_ne_nil api hne] at hc
  rcases Relation.reflTransGen_iff_eq_or_transGen.mp hr with rfl | ht
  · exact hc.not_own_ancestor hapi (.single hid)
  · obtain ⟨parents, hp, -⟩ := hc.ancestor hapi ht
    exact hp.not_own_ancestor hapi (.single hid)

theorem climbs_iff (hapi : api.Plain) {parts : List Text} (h : Held api resources parts) :
    Climbs api resources (partsRef api parts) parts ↔ NamedBelow parts := by
  refine ⟨fun hc => ?_, h.climbs⟩
  by_contra hn
  exact h.not_climbs hapi hn parts hc

/-- A front of parts with names is held with them. -/
theorem front {front parts : List Text} (h : Held api resources parts) (hn : NamedBelow parts)
    (hf : front <+: parts) : Held api resources front ∧ NamedBelow front := by
  induction parts using List.reverseRecOn with
  | nil =>
      obtain rfl := List.prefix_nil.mp hf
      exact ⟨h, hn⟩
  | append_singleton parents part ih =>
      rcases List.prefix_concat_iff.mp hf with rfl | hf
      · exact ⟨h, hn⟩
      · by_cases hp : parents = []
        · subst hp
          obtain rfl := List.prefix_nil.mp hf
          exact ⟨by simp [Held], by simp [NamedBelow]⟩
        · obtain ⟨hnp, hpart⟩ := (namedBelow_concat hp part).mp hn
          exact ih (h.parents hpart) hnp hf

end Held

end Route

end TableGateway
