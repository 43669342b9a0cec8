import TableGateway.Proofs.Entries
import TableGateway.Resource

/-! # What resources show

The type and the properties of a resource, read off the form in which it is written. The properties
of a method are found behind those of its authorization, of which some may be absent. -/

namespace TableGateway

namespace Resource

/-- The type of a resource as it is written. -/
def type (resource : Resource) : Json := resource.toJson.field "Type"

/-- A property of a resource as it is written; null when it is absent. -/
def property (resource : Resource) (name : Text) : Json :=
  (resource.toJson.field "Properties").field name

section Kinds

variable {resource : Resource} (hmade : ∀ body, resource ≠ given body)

include hmade

/-- Among the resources that are made here the type tells the kind. -/
theorem exists_path_of_type (h : resource.type = .str "AWS::ApiGateway::Resource") :
    ∃ made, resource = path made := by
  cases resource with
  | path made => exact ⟨made, rfl⟩
  | given body => exact absurd rfl (hmade body)
  | restApi _ | method _ | role _ | deployment _ =>
      exact absurd (Json.str.inj h) (Text.ofString_ne (by simp))

theorem exists_method_of_type (h : resource.type = .str "AWS::ApiGateway::Method") :
    ∃ made, resource = method made := by
  cases resource with
  | method made => exact ⟨made, rfl⟩
  | given body => exact absurd rfl (hmade body)
  | restApi _ | path _ | role _ | deployment _ =>
      exact absurd (Json.str.inj h) (Text.ofString_ne (by simp))

theorem exists_deployment_of_type (h : resource.type = .str "AWS::ApiGateway::Deployment") :
    ∃ made, resource = deployment made := by
  cases resource with
  | deployment made => exact ⟨made, rfl⟩
  | given body => exact absurd rfl (hmade body)
  | restApi _ | path _ | method _ | role _ =>
      exact absurd (Json.str.inj h) (Text.ofString_ne (by simp))

end Kinds

end Resource

namespace MethodResource

theorem keys_authProperties_subset (auth : Auth) :
    Entries.keys (authProperties auth) ⊆
      ["AuthorizationType", "AuthorizationScopes", "AuthorizerId"] := by
  have hscopes : Entries.keys (scopeProperties auth) ⊆ ["AuthorizationScopes"] := by
    unfold scopeProperties
    split <;> simp
  have hauthorizer : Entries.keys (authorizerProperties auth) ⊆ ["AuthorizerId"] := by
    unfold authorizerProperties
    split <;> simp
  intro key hk
  simp only [authProperties, Entries.keys_cons, Entries.keys_append, List.mem_cons,
    List.mem_append] at hk
  rcases hk with rfl | hk | hk
  · simp
  · have h := hscopes hk
    simp_all
  · have h := hauthorizer hk
    simp_all

/-- What is no property of the call or the authorization is one of what is served, and where. -/
theorem property_eq (m : MethodResource) {name : Text}
    (h : name ∉ (["HttpMethod", "RequestParameters", "AuthorizationType", "AuthorizationScopes",
      "AuthorizerId"] : List Text)) :
    (Resource.method m).property name = Json.field (.obj m.servedProperties) name := by
  have hauth : Entries.get? (authProperties m.auth) name = none := by
    rw [Entries.get?_eq_none_iff]
    intro hk
    have hs := keys_authProperties_subset m.auth hk
    simp_all
  have hp : (Resource.method m).toJson.field "Properties" = .obj m.properties := rfl
  simp only [List.mem_cons, not_or] at h
  rw [Resource.property, hp, Json.field, Json.field, properties]
  rw [Entries.get?_cons, if_neg (Ne.symm h.1), Entries.get?_cons, if_neg (Ne.symm h.2.1),
    Entries.get?_append, hauth, Option.none_or]

theorem property_resourceId (m : MethodResource) :
    (Resource.method m).property "ResourceId" = m.resourceId := by
  rw [property_eq m (by decide)]
  rfl

theorem property_restApiId (m : MethodResource) :
    (Resource.method m).property "RestApiId" = m.restApiId := by
  rw [property_eq m (by decide)]
  rfl

theorem property_integration (m : MethodResource) :
    (Resource.method m).property "Integration" = m.integration.toJson := by
  rw [property_eq m (by decide)]
  rfl

theorem property_responses (m : MethodResource) :
    (Resource.method m).property "MethodResponses" =
      .arr (m.responses.map Method.DeclaredResponse.toJson) := by
  rw [property_eq m (by decide)]
  rfl

end MethodResource

end TableGateway
