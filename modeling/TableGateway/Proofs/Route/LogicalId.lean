import Mathlib.Data.List.Basic
import TableGateway.Api
import TableGateway.Event.Loader
import TableGateway.Method
import TableGateway.Proofs.Text.Letters
import TableGateway.Proofs.Text.Parts

/-! # Logical IDs

An ID starts with the name of its family, and the families can be told apart by their first letters.
Within the family of path resources the ID depends on the parts of the path alone. A template takes
letters and digits as an ID, with a letter in front. What a path spells, in whatever script, leaves
nothing else in its name, and so the IDs that are made of names can stand in a template. -/

namespace TableGateway.Route

/-! ## Families of IDs -/

/-- The letters that tell the families of IDs apart. -/
def idFamily (logicalId : Text) : Text := logicalId.take 14

theorem idFamily_resourceLogicalId (path : Text) :
    idFamily (resourceLogicalId path) = "ApiGatewayReso" := rfl

theorem idFamily_methodLogicalId (resourceName method : Text) :
    idFamily (methodLogicalId resourceName method) = "ApiGatewayMeth" := rfl

theorem idFamily_restApi : idFamily restApiLogicalId = "ApiGatewayRest" := rfl

theorem ne_of_idFamily_ne {a b : Text} (h : idFamily a ≠ idFamily b) : a ≠ b := by
  rintro rfl
  exact h rfl

theorem resourceLogicalId_ne_restApi (path : Text) :
    resourceLogicalId path ≠ restApiLogicalId := by
  apply ne_of_idFamily_ne
  rw [idFamily_resourceLogicalId, idFamily_restApi]
  decide

theorem methodLogicalId_ne_restApi (resourceName method : Text) :
    methodLogicalId resourceName method ≠ restApiLogicalId := by
  apply ne_of_idFamily_ne
  rw [idFamily_methodLogicalId, idFamily_restApi]
  decide

/-! ## IDs of parts -/

/-- The logical ID of the resource that some parts lead to. -/
def partsId (parts : List Text) : Text := "ApiGatewayResource" ++ parts.flatMap partName

theorem resourceLogicalId_eq (path : Text) :
    resourceLogicalId path = partsId (Text.parts path) := rfl

theorem resourceLogicalId_ofParts {parts : List Text} (h : Text.AreParts parts) :
    resourceLogicalId (ofParts parts) = partsId parts := by
  rw [resourceLogicalId_eq, ofParts, Text.parts_join h]

theorem partsId_concat (parents : List Text) (part : Text) :
    partsId (parents ++ [part]) = partsId parents ++ partName part := by
  simp [partsId]

/-- The reference to the resource that some parts lead to; without parts it is the root. -/
def partsRef (api : Api) (parts : List Text) : Json :=
  if parts = [] then api.rootResourceId else Intrinsic.ref (partsId parts)

@[simp] theorem partsRef_nil (api : Api) : partsRef api [] = api.rootResourceId := rfl

theorem partsRef_of_ne_nil (api : Api) {parts : List Text} (h : parts ≠ []) :
    partsRef api parts = Intrinsic.ref (partsId parts) := by
  simp [partsRef, h]

theorem resourceId_eq (api : Api) (path : Text) :
    resourceId api path = partsRef api (Text.parts path) := by
  by_cases h : Text.parts path = []
  · have ht := Text.trimSlashes_eq_nil_iff.mpr h
    simp [resourceId, ht, h]
  · have ht : Text.trimSlashes path ≠ [] := fun e => h (Text.trimSlashes_eq_nil_iff.mp e)
    simp [resourceId, ht, partsRef_of_ne_nil api h, resourceLogicalId_eq]

theorem resourceId_ofParts (api : Api) {parts : List Text} (h : Text.AreParts parts) :
    resourceId api (ofParts parts) = partsRef api parts := by
  rw [resourceId_eq, ofParts, Text.parts_join h]

/-! ## IDs as a template allows them -/

/-- Whether a text can be a logical ID: ASCII letters and digits, the first of them a letter. -/
structure ValidId (id : Text) : Prop where
  alphanumeric : Text.Alphanumeric id
  letter : ∃ first ∈ id.head?, first.isIn Char.isAlpha = true

theorem ValidId.append {front back : Text} (h : ValidId front) (hb : Text.Alphanumeric back) :
    ValidId (front ++ back) := by
  obtain ⟨halphanumeric, first, hf, hletter⟩ := h
  refine ⟨Text.alphanumeric_append.mpr ⟨halphanumeric, hb⟩, first, ?_, hletter⟩
  exact List.mem_head?_append_of_mem_head? hf

/-! ## Names of paths -/

theorem alphanumeric_partName (part : Text) : Text.Alphanumeric (partName part) :=
  Text.alphanumeric_upperFirst (Text.alphanumeric_filter _)

theorem alphanumeric_pathName (path : Text) : Text.Alphanumeric (pathName path) :=
  Text.alphanumeric_flatMap alphanumeric_partName (Text.parts path)

theorem isLower_head_partName {part : Text} {first : CodePoint}
    (h : (partName part).head? = some first) : first.isIn Char.isLower = false :=
  Text.isLower_head_upperFirst (Text.alphanumeric_filter _) h

/-! ## Names of methods -/

/-- Whether a text spells a method: in lower case it is one of those that can be bound. -/
def SpellsMethod (method : Text) : Prop := Text.lower method ∈ Event.httpMethods

instance (method : Text) : Decidable (SpellsMethod method) :=
  inferInstanceAs (Decidable (Text.lower method ∈ Event.httpMethods))

theorem lowerWord_of_mem_httpMethods {method : Text} (h : method ∈ Event.httpMethods) :
    Text.LowerWord method := by
  have hall : ∀ method ∈ Event.httpMethods,
      method ≠ [] ∧ ∀ c ∈ method, c.isIn Char.isLower = true := by
    decide
  exact ⟨(hall method h).1, (hall method h).2⟩

theorem spellsMethod_of_mem {method : Text} (h : method ∈ Event.httpMethods) :
    SpellsMethod method := by
  rwa [SpellsMethod, (lowerWord_of_mem_httpMethods h).lower_eq]

theorem alphanumeric_methodName {method : Text} (h : SpellsMethod method) :
    Text.Alphanumeric (methodName method) :=
  Text.alphanumeric_upperFirst (lowerWord_of_mem_httpMethods h).alphanumeric

/-! ## IDs made of names -/

theorem validId_restApi : ValidId restApiLogicalId := ⟨by decide, by decide⟩

theorem validId_partsId (parts : List Text) : ValidId (partsId parts) :=
  ValidId.append ⟨by decide, by decide⟩
    (Text.alphanumeric_flatMap alphanumeric_partName parts)

theorem validId_methodLogicalId {resourceName method : Text}
    (hname : Text.Alphanumeric resourceName) (hmethod : SpellsMethod method) :
    ValidId (methodLogicalId resourceName method) := by
  have hfamily : ValidId "ApiGatewayMethod" := ⟨by decide, by decide⟩
  exact (hfamily.append hname).append (alphanumeric_methodName hmethod)

end TableGateway.Route
