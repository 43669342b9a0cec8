import TableGateway.Proofs.Route.Nameless
import TableGateway.Proofs.Route.Prefixes

/-! # The chain of resources of a path

A path has as many resources as prefixes with IDs of their own. Where every part below the first has
a name, the resources form a chain in the order of the parts, each below the one before. -/

namespace TableGateway.Route

/-- The ID of the prefix of some length of a path. -/
def prefixId (path : Text) (length : Nat) : Text :=
  resourceLogicalId (ofParts ((Text.parts path).take length))

/-- The resource of the prefix that ends with the part at a position: below the root for the first
part, and below the prefix before for all others. -/
def chainEntry (api : Api) (path : Text) (position : Nat) (part : Text) : Text × PathResource :=
  (prefixId path (position + 1),
    { parentId := if position = 0 then api.rootResourceId
        else Intrinsic.ref (prefixId path position)
      pathPart := part
      restApiId := api.restApiId })

/-! ## The number of resources -/

theorem partsId_mem_keys_iff (api : Api) (parents : List Text) (part : Text) :
    partsId (parents ++ [part]) ∈ Entries.keys (partsResources api parents) ↔
      parents ≠ [] ∧ partName part = [] := by
  constructor
  · intro h
    refine ⟨?_, ?_⟩
    · rintro rfl
      simp at h
    · by_contra hn
      exact partsId_not_mem_keys api parents hn h
  · rintro ⟨hp, hn⟩
    rw [partsId_concat, hn, List.append_nil]
    exact mem_keys_partsResources.mpr ⟨parents, List.prefix_rfl, hp, rfl⟩

/-- The first part brings a resource, and so does every other part that has a name. -/
theorem length_partsResources (api : Api) (parts : List Text) :
    (partsResources api parts).length =
      if parts = [] then 0 else 1 + parts.tail.countP (fun part => partName part ≠ []) := by
  induction parts using List.reverseRecOn with
  | nil => rfl
  | append_singleton parents part ih =>
      have hne : parents ++ [part] ≠ [] := by simp
      rw [partsResources_concat, Entries.length_put, if_neg hne, ih,
        if_congr (partsId_mem_keys_iff api parents part) rfl rfl]
      by_cases hp : parents = []
      · simp [hp]
      · rw [List.tail_append_of_ne_nil hp, List.countP_append]
        by_cases hn : partName part = []
        · simp [hp, hn]
        · simp [hp, hn, Nat.add_assoc]

/-! ## The order of resources -/

theorem getElem?_chainFrom {α : Type} (before items : List α) (position : Nat) :
    (chainFrom before items)[position]? =
      items[position]?.map fun item => (before ++ items.take position, item) := by
  induction items generalizing before position with
  | nil => simp [chainFrom]
  | cons first rest ih =>
      cases position with
      | zero => simp [chainFrom]
      | succ position => simp [chainFrom, ih]

/-- Where every part below the first has a name, no prefix is written over another one. -/
theorem partsResources_of_namedBelow (api : Api) {parts : List Text} (h : NamedBelow parts) :
    partsResources api parts =
      (chainFrom [] parts).map fun step => prefixEntry api step.1 step.2 := by
  induction parts using List.reverseRecOn with
  | nil => rfl
  | append_singleton parents part ih =>
      have hnew : partsId (parents ++ [part]) ∉ Entries.keys (partsResources api parents) := by
        rw [partsId_mem_keys_iff]
        rintro ⟨hp, hn⟩
        exact ((namedBelow_concat hp part).mp h).2 hn
      have hparents : NamedBelow parents := fun p hp => h p (by
        cases parents with
        | nil => exact absurd hp List.not_mem_nil
        | cons first rest => exact List.mem_append_left [part] hp)
      rw [partsResources_concat, Entries.put_of_not_mem _ hnew, ih hparents, chainFrom_concat]
      simp [prefixEntry]

theorem prefixId_eq (path : Text) (length : Nat) :
    prefixId path length = partsId ((Text.parts path).take length) := by
  have hparts := Text.areParts_parts path
  rw [← List.take_append_drop length (Text.parts path)] at hparts
  exact resourceLogicalId_ofParts hparts.left

/-- Each resource of such a path, by its position. -/
theorem getElem?_resources (api : Api) {path : Text} (h : NamedBelow (Text.parts path))
    (position : Nat) :
    (resources api path)[position]? =
      (Text.parts path)[position]?.map (chainEntry api path position) := by
  rw [resources_eq, partsResources_of_namedBelow api h, List.getElem?_map, getElem?_chainFrom,
    Option.map_map]
  apply Option.map_congr
  intro part hpart
  have hlt : position < (Text.parts path).length := by
    by_contra hle
    rw [List.getElem?_eq_none (by omega)] at hpart
    cases hpart
  have htake : (Text.parts path).take position ++ [part] = (Text.parts path).take (position + 1) := by
    rw [List.take_add_one, hpart]
    rfl
  have href : partsRef api ((Text.parts path).take position) =
      if position = 0 then api.rootResourceId else Intrinsic.ref (prefixId path position) := by
    by_cases hz : position = 0
    · simp [hz]
    · have hne : (Text.parts path).take position ≠ [] := by
        rw [Ne, List.take_eq_nil_iff, not_or]
        exact ⟨hz, List.ne_nil_of_length_pos (by omega)⟩
      rw [if_neg hz, partsRef_of_ne_nil api hne, prefixId_eq]
  simp [prefixEntry, chainEntry, htake, href, prefixId_eq]

/-! ## The resources of a path -/

/-- The resources of a path: as many as the first part and the other parts that have a name. Where
all of these have one, there is one resource for each part, in their order and under distinct IDs.
A path that is not the root refers to the resource of its longest prefix. -/
theorem resources_chain (api : Api) (path : Text) :
    (resources api path).length =
        (if Text.parts path = [] then 0
          else 1 + (Text.parts path).tail.countP (fun part => partName part ≠ [])) ∧
      (∀ part, partName part = [] ↔ Nameless part) ∧
      (NamedBelow (Text.parts path) →
        (Entries.keys (resources api path)).Nodup ∧
          ∀ position, (resources api path)[position]? =
            (Text.parts path)[position]?.map (chainEntry api path position)) ∧
      (Text.parts path ≠ [] →
        resourceId api path = Intrinsic.ref (prefixId path (Text.parts path).length) ∧
          prefixId path (Text.parts path).length ∈ Entries.keys (resources api path)) := by
  refine ⟨?_, fun part => partName_eq_nil_iff, ?_, ?_⟩
  · rw [resources_eq]
    exact length_partsResources api _
  · exact fun h => ⟨nodup_keys_resources api path, getElem?_resources api h⟩
  · intro h
    rw [prefixId_eq, List.take_length]
    refine ⟨?_, ?_⟩
    · rw [resourceId_eq, partsRef_of_ne_nil api h]
    · rw [resources_eq]
      exact mem_keys_partsResources.mpr ⟨_, List.prefix_rfl, h, rfl⟩

/-- The orders of a user. -/
def userOrders : Text := "/users//{id}/orders/"

/-- All its parts have names, so the orders are third in the chain, below the user. -/
theorem resources_chain_userOrders :
    NamedBelow (Text.parts userOrders) ∧ Text.parts userOrders ≠ [] ∧
      (resources .own userOrders).length = 3 ∧
      (resources .own userOrders)[2]? =
        some (Text.ofString "ApiGatewayResourceUsersIdVarOrders",
          PathResource.mk (Intrinsic.ref "ApiGatewayResourceUsersIdVar") "orders"
            Api.own.restApiId) ∧
      resourceId .own userOrders = Intrinsic.ref "ApiGatewayResourceUsersIdVarOrders" := by
  have hnamed : NamedBelow (Text.parts userOrders) := by decide +kernel
  have hne : Text.parts userOrders ≠ [] := by decide +kernel
  obtain ⟨hlength, -, hchain, hlast⟩ := resources_chain .own userOrders
  refine ⟨hnamed, hne, ?_, ?_, ?_⟩
  · rw [hlength]
    decide +kernel
  · rw [(hchain hnamed).2 2]
    decide +kernel
  · rw [(hlast hne).1]
    decide +kernel

end TableGateway.Route
