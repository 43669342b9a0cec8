import TableGateway.Proofs.Route.Prefixes

/-! # Names through parts

Naming sees a path only through its non-empty parts: slashes that surround the parts, or stand more
than once between them, make no difference. The name of a path below another one is that of the
other, with its own name behind. -/

namespace TableGateway.Route

/-! ## Paths with the same parts -/

/-- Whether two paths make no difference to naming: they have one name, one logical ID, and below
every API one reference and the same resources. -/
structure NamedAlike (path other : Text) : Prop where
  name : pathName path = pathName other
  logicalId : resourceLogicalId path = resourceLogicalId other
  reference : ∀ api, resourceId api path = resourceId api other
  resources : ∀ api, resources api path = resources api other

theorem namedAlike_of_parts_eq {path other : Text} (h : Text.parts path = Text.parts other) :
    NamedAlike path other where
  name := by rw [pathName, pathName, h]
  logicalId := by rw [resourceLogicalId_eq, resourceLogicalId_eq, h]
  reference := fun api => by rw [resourceId_eq, resourceId_eq, h]
  resources := fun api => by rw [resources_eq, resources_eq, h]

/-- The parts of a path, joined with single slashes, are a path of the same parts. -/
theorem parts_ofParts_parts (path : Text) :
    Text.parts (ofParts (Text.parts path)) = Text.parts path :=
  Text.parts_join (Text.areParts_parts path)

/-! ## The root -/

/-- Whether a path refers to the root of the API, whichever API it is. -/
def AtRoot (path : Text) : Prop := ∀ api, resourceId api path = api.rootResourceId

theorem atRoot_iff {path : Text} : AtRoot path ↔ Text.parts path = [] := by
  constructor
  · intro h
    by_contra hne
    -- The root of this API is no reference, but that of a path with parts is one.
    have hroot := h ⟨.null, .null⟩
    rw [resourceId_eq, partsRef_of_ne_nil _ hne] at hroot
    cases hroot
  · intro h api
    rw [resourceId_eq, h, partsRef_nil]

theorem resources_eq_nil_iff {api : Api} {path : Text} :
    resources api path = [] ↔ Text.parts path = [] := by
  rw [resources_eq]
  constructor
  · intro h
    by_contra hne
    have hlast : partsId (Text.parts path) ∈ Entries.keys (partsResources api (Text.parts path)) :=
      mem_keys_partsResources.mpr ⟨_, List.prefix_rfl, hne, rfl⟩
    rw [h] at hlast
    exact absurd hlast List.not_mem_nil
  · intro h
    rw [h, partsResources_nil]

/-! ## Paths below paths -/

theorem pathName_append_slash (path below : Text) :
    pathName (path ++ .char '/' :: below) = pathName path ++ pathName below := by
  rw [pathName, Text.parts_append_slash, List.flatMap_append]
  rfl

theorem resourceLogicalId_append_slash (path below : Text) :
    resourceLogicalId (path ++ .char '/' :: below) = resourceLogicalId path ++ pathName below := by
  rw [resourceLogicalId, pathName_append_slash, ← List.append_assoc]
  rfl

/-- Naming makes no difference between a path and its parts joined with single slashes. A path
without resources is the root of every API, and any other one is referred to by its logical ID. The
names and the logical IDs of paths below it start with its own. -/
theorem naming_of_parts (path : Text) :
    NamedAlike path (ofParts (Text.parts path)) ∧
      (∀ api, (AtRoot path ↔ resources api path = []) ∧
        resourceId api path =
          if resources api path = [] then api.rootResourceId
          else Intrinsic.ref (resourceLogicalId path)) ∧
      ∀ below,
        pathName (path ++ .char '/' :: below) = pathName path ++ pathName below ∧
          resourceLogicalId (path ++ .char '/' :: below) =
            resourceLogicalId path ++ pathName below := by
  refine ⟨namedAlike_of_parts_eq (parts_ofParts_parts path).symm, ?_, ?_⟩
  · intro api
    refine ⟨atRoot_iff.trans resources_eq_nil_iff.symm, ?_⟩
    rw [resourceId_eq, partsRef, if_congr resources_eq_nil_iff rfl rfl, resourceLogicalId_eq]
  · intro below
    exact ⟨pathName_append_slash path below, resourceLogicalId_append_slash path below⟩

example : resourceLogicalId "//users//{id}/" = "ApiGatewayResourceUsersIdVar" := by decide +kernel

end TableGateway.Route
