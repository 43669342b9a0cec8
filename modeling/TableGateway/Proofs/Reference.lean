import TableGateway.Proofs.Entries
import TableGateway.Proofs.Method.Making
import TableGateway.Resource

/-! # References inside values

A value refers to an ID when it has a `Ref` or a `Fn::GetAtt` to it at any depth. A resource makes
few references of its own: every other one that is found in it comes from a value that an event
passes on. -/

namespace TableGateway

namespace Json

/-- A value has a reference to an ID, or to an attribute of it, at any depth. -/
inductive Mentions (id : Text) : Json → Prop
  | ref {fields} (h : (("Ref" : Text), .str id) ∈ fields) : Mentions id (.obj fields)
  | getAtt {fields rest} (h : (("Fn::GetAtt" : Text), .arr (.str id :: rest)) ∈ fields) :
      Mentions id (.obj fields)
  | item {items item} (hm : item ∈ items) (h : Mentions id item) : Mentions id (.arr items)
  | field {fields key value} (hm : (key, value) ∈ fields) (h : Mentions id value) :
      Mentions id (.obj fields)

section Mentions

variable {id : Text}

@[simp] theorem not_mentions_str (text : Text) : ¬ (str text).Mentions id := nofun

@[simp] theorem not_mentions_int (n : Int) : ¬ (int n).Mentions id := nofun

@[simp] theorem not_mentions_bool (b : Bool) : ¬ (bool b).Mentions id := nofun

theorem mentions_arr_iff {items : List Json} :
    (arr items).Mentions id ↔ ∃ item ∈ items, item.Mentions id := by
  constructor
  · intro h
    cases h with
    | item hm h => exact ⟨_, hm, h⟩
  · rintro ⟨item, hm, h⟩
    exact .item hm h

@[simp] theorem not_mentions_arr_nil : ¬ (arr []).Mentions id := by simp [mentions_arr_iff]

@[simp] theorem mentions_arr_cons {item : Json} {rest : List Json} :
    (arr (item :: rest)).Mentions id ↔ item.Mentions id ∨ (arr rest).Mentions id := by
  simp [mentions_arr_iff]

@[simp] theorem mentions_arr_map {α : Type} {f : α → Json} {items : List α} :
    (arr (items.map f)).Mentions id ↔ ∃ item ∈ items, (f item).Mentions id := by
  induction items with
  | nil => simp
  | cons item rest ih => simp [ih]

theorem mentions_obj_iff {fields : List (Text × Json)} :
    (obj fields).Mentions id ↔ (("Ref" : Text), str id) ∈ fields ∨
      (∃ rest, (("Fn::GetAtt" : Text), arr (str id :: rest)) ∈ fields) ∨
      ∃ key value, (key, value) ∈ fields ∧ value.Mentions id := by
  constructor
  · intro h
    cases h with
    | ref h => exact Or.inl h
    | getAtt h => exact Or.inr (Or.inl ⟨_, h⟩)
    | field hm h => exact Or.inr (Or.inr ⟨_, _, hm, h⟩)
  · rintro (h | ⟨rest, h⟩ | ⟨key, value, hm, h⟩)
    · exact .ref h
    · exact .getAtt h
    · exact .field hm h

@[simp] theorem not_mentions_obj_nil : ¬ (obj []).Mentions id := by simp [mentions_obj_iff]

/-- A field under any other key is no reference by itself. -/
theorem mentions_obj_cons {key : Text} (hr : key ≠ "Ref") (ha : key ≠ "Fn::GetAtt") {value : Json}
    {rest : List (Text × Json)} :
    (obj ((key, value) :: rest)).Mentions id ↔ value.Mentions id ∨ (obj rest).Mentions id := by
  simp only [mentions_obj_iff, List.mem_cons, Prod.mk.injEq, hr.symm, ha.symm, false_and, false_or]
  constructor
  · rintro (h | h | ⟨k, v, ⟨rfl, rfl⟩ | hm, h⟩)
    · exact Or.inr (Or.inl h)
    · exact Or.inr (Or.inr (Or.inl h))
    · exact Or.inl h
    · exact Or.inr (Or.inr (Or.inr ⟨k, v, hm, h⟩))
  · rintro (h | h | h | ⟨k, v, hm, h⟩)
    · exact Or.inr (Or.inr ⟨key, value, Or.inl ⟨rfl, rfl⟩, h⟩)
    · exact Or.inl h
    · exact Or.inr (Or.inl h)
    · exact Or.inr (Or.inr ⟨k, v, Or.inr hm, h⟩)

theorem mentions_obj_of_subset {fields more : List (Text × Json)} (h : fields ⊆ more)
    (hm : (obj fields).Mentions id) : (obj more).Mentions id := by
  rcases mentions_obj_iff.mp hm with hr | ⟨rest, ha⟩ | ⟨key, value, hv, hi⟩
  · exact .ref (h hr)
  · exact .getAtt (h ha)
  · exact .field (h hv) hi

theorem mentions_obj_or {fields base newer : List (Text × Json)}
    (h : ∀ entry ∈ fields, entry ∈ base ∨ entry ∈ newer) (hm : (obj fields).Mentions id) :
    (obj base).Mentions id ∨ (obj newer).Mentions id := by
  rcases mentions_obj_iff.mp hm with hr | ⟨rest, ha⟩ | ⟨key, value, hv, hi⟩
  · exact (h _ hr).imp .ref .ref
  · exact (h _ ha).imp .getAtt .getAtt
  · exact (h _ hv).imp (.field · hi) (.field · hi)

theorem mentions_append {base more : List (Text × Json)} :
    (obj (base ++ more)).Mentions id ↔ (obj base).Mentions id ∨ (obj more).Mentions id := by
  constructor
  · exact mentions_obj_or fun _ => List.mem_append.mp
  · rintro (h | h)
    · exact mentions_obj_of_subset (List.subset_append_left _ _) h
    · exact mentions_obj_of_subset (List.subset_append_right _ _) h

/-- A merged object has the references of its two parts only. -/
theorem mentions_merge {base newer : List (Text × Json)}
    (h : (obj (Entries.merge base newer)).Mentions id) :
    (obj base).Mentions id ∨ (obj newer).Mentions id :=
  mentions_obj_or (fun _ => Entries.mem_or_mem_of_mem_merge) h

theorem mentions_flatMap {α : Type} {f : α → List (Text × Json)} {items : List α} :
    (obj (items.flatMap f)).Mentions id ↔ ∃ item ∈ items, (obj (f item)).Mentions id := by
  induction items with
  | nil => simp
  | cons item rest ih => simp [mentions_append, ih]

end Mentions

end Json

namespace Intrinsic

variable {id : Text}

@[simp] theorem mentions_ref_iff {target : Text} : (ref target).Mentions id ↔ id = target := by
  simp [ref, Json.mentions_obj_iff, eq_comm (a := id)]

@[simp] theorem mentions_getAtt_iff {target name : Text} :
    (getAtt target name).Mentions id ↔ id = target := by
  simp [getAtt, Json.mentions_obj_iff, eq_comm (a := id)]

@[simp] theorem mentions_sub_iff {text : Text} {values : List (Text × Json)} :
    (sub text values).Mentions id ↔ (Json.obj values).Mentions id := by
  simp (disch := decide) [sub, Json.mentions_obj_cons]

end Intrinsic

/-! ## What an event passes on -/

def KeySource.supplied (source : KeySource) : List Json :=
  [source.attributeType, source.pathParam, source.queryStringParam, source.name, source.value]

/-- The values of an event that are passed on as they are. -/
def Event.supplied (event : Event) : List Json :=
  event.tableName :: event.condition :: event.auth.authorizationType :: event.auth.authorizerId ::
    event.requestTemplates :: event.responseTemplates :: (event.auth.scopes.getD [] ++
      [KeyRole.hash, KeyRole.range].flatMap fun role =>
        (event.keySource role).toList.flatMap KeySource.supplied)

/-- An event passes on a reference to an ID. -/
def Event.Supplies (event : Event) (id : Text) : Prop :=
  ∃ value ∈ event.supplied, value.Mentions id

section Supplies

variable {event : Event} {id : Text}

theorem KeySource.supplied_of_resolve? {source : KeySource} {k : KeyAttribute}
    (hk : source.resolve? = some k) :
    k.key ∈ source.supplied ∧ k.attributeType ∈ source.supplied ∧
      ((∃ text, k.attributeValue = .str text) ∨ k.attributeValue ∈ source.supplied) := by
  unfold resolve? at hk
  split at hk
  · obtain rfl := Option.some.inj hk
    exact ⟨by simp [supplied], by simp [supplied], Or.inl ⟨_, rfl⟩⟩
  · split at hk
    · obtain rfl := Option.some.inj hk
      exact ⟨by simp [supplied], by simp [supplied], Or.inl ⟨_, rfl⟩⟩
    · split at hk
      · obtain rfl := Option.some.inj hk
        exact ⟨by simp [supplied], by simp [supplied], Or.inr (by simp [supplied])⟩
      · cases hk

theorem KeyAttribute.mentions_values_iff {k : KeyAttribute} {role : KeyRole} :
    (Json.obj (k.values role.label)).Mentions id ↔
      k.key.Mentions id ∨ k.attributeType.Mentions id ∨ k.attributeValue.Mentions id := by
  cases role <;> simp (disch := decide) [values, KeyRole.label, Json.mentions_obj_cons]

theorem Mapping.supplies_of_keyValues (h : (Json.obj (keyValues event)).Mentions id) :
    event.Supplies id := by
  obtain ⟨⟨role, k⟩, hk, hm⟩ := Json.mentions_flatMap.mp h
  simp only [resolvedKeys, List.mem_filterMap, Option.map_eq_some_iff, Prod.mk.injEq] at hk
  obtain ⟨found, hr, k, hk, rfl, rfl⟩ := hk
  obtain ⟨source, hs, hk⟩ := Option.bind_eq_some_iff.mp hk
  obtain ⟨hkey, htype, hvalue⟩ := KeySource.supplied_of_resolve? hk
  have hsupplied : ∀ value ∈ source.supplied, value ∈ event.supplied := by
    intro value hv
    have hrole : value ∈ [KeyRole.hash, KeyRole.range].flatMap fun role =>
        (event.keySource role).toList.flatMap KeySource.supplied :=
      List.mem_flatMap.mpr ⟨found, hr, List.mem_flatMap.mpr ⟨source, by simp [hs], hv⟩⟩
    simp only [Event.supplied, List.mem_cons, List.mem_append, hrole, or_true]
  rcases KeyAttribute.mentions_values_iff.mp hm with h | h | h
  · exact ⟨_, hsupplied _ hkey, h⟩
  · exact ⟨_, hsupplied _ htype, h⟩
  · rcases hvalue with ⟨text, ht⟩ | hvalue
    · rw [ht] at h
      cases h
    · exact ⟨_, hsupplied _ hvalue, h⟩

theorem Event.supplies_of_tableName (h : event.tableName.Mentions id) : event.Supplies id :=
  ⟨_, by simp [supplied], h⟩

theorem Mapping.supplies_of_conditionValue (h : (Json.obj (conditionValue event)).Mentions id) :
    event.Supplies id := by
  have hcondition : event.condition.Mentions id := by
    unfold conditionValue at h
    split at h
    · simp at h
    · simpa (disch := decide) [Json.mentions_obj_cons] using h
  exact ⟨_, by simp [Event.supplied], hcondition⟩

/-- The default templates refer to what fills their slots. -/
theorem Mapping.supplies_of_requestTemplateOf {action : Action}
    (h : (requestTemplateOf event action).toJson.Mentions id) : event.Supplies id := by
  have hvalues : event.tableName.Mentions id ∨ (Json.obj (keyValues event)).Mentions id ∨
      (Json.obj (conditionValue event)).Mentions id := by
    cases action <;>
      simp (disch := decide) [requestTemplateOf, putItem, getItem, deleteItem, Template.toJson,
        Json.mentions_obj_cons, Json.mentions_append] at h <;> grind
  rcases hvalues with h | h | h
  · exact Event.supplies_of_tableName h
  · exact supplies_of_keyValues h
  · exact supplies_of_conditionValue h

theorem Mapping.mentions_map_contentTypes {value : Json} :
    (Json.obj (contentTypes.map fun contentType => (contentType, value))).Mentions id ↔
      value.Mentions id := by
  simp (disch := decide) [contentTypes, jsonContentType, formContentType, Json.mentions_obj_cons]

theorem Json.mentions_of_overrides? {value : Json} {overrides : List (Text × Json)}
    (ho : value.overrides? = some overrides) (h : (obj overrides).Mentions id) :
    value.Mentions id := by
  cases value with
  | obj fields =>
      obtain rfl := Option.some.inj ho
      exact h
  | null | bool b | int n | float x | str s | arr items =>
      simp only [overrides?, Option.ite_none_left_eq_some, Option.some.injEq] at ho
      obtain ⟨-, rfl⟩ := ho
      simp at h

theorem Mapping.supplies_of_requestTemplates {templates : List (Text × Json)}
    (ht : requestTemplates event = .ok templates) (h : (Json.obj templates).Mentions id) :
    event.Supplies id := by
  simp only [requestTemplates, bind_eq_ok, requestOverrides_ok_iff, pure_eq_ok] at ht
  obtain ⟨overrides, ho, template, hd, rfl⟩ := ht
  rcases Json.mentions_merge h with h | h
  · cases ha : event.action with
    | other value => simp [requestTemplate, ha] at hd
    | known action =>
        obtain rfl : requestTemplateOf event action = template := by
          simpa [requestTemplate, ha] using hd
        exact supplies_of_requestTemplateOf (mentions_map_contentTypes.mp h)
  · exact ⟨event.requestTemplates, by simp [Event.supplied], Json.mentions_of_overrides? ho h⟩

/-! ## Responses -/

namespace Mapping

theorem mentions_of_overrideTemplates {outcome : Outcome} {value : Json}
    {replaced : List (Text × Json)} (hr : overrideTemplates outcome value = .ok replaced)
    (h : (Json.obj replaced).Mentions id) : value.Mentions id := by
  cases value with
  | str template =>
      obtain rfl := Except.ok.inj hr
      simp (disch := decide) [jsonContentType, Json.mentions_obj_cons] at h
  | obj templates =>
      obtain rfl := Except.ok.inj hr
      exact h
  | null | bool b | int n | float x | arr items => cases hr

theorem ResponseTemplates.get_set (templates : ResponseTemplates) (one other : Outcome)
    (value : List (Text × Json)) :
    (templates.set one value).get other = if one = other then value else templates.get other := by
  cases one <;> cases other <;> rfl

theorem ResponseTemplates.mentions_override {templates replaced : ResponseTemplates}
    {overrides : List (Text × Json)} (hr : templates.override overrides = .ok replaced)
    {outcome : Outcome} (h : (Json.obj (replaced.get outcome)).Mentions id) :
    (Json.obj (templates.get outcome)).Mentions id ∨ (Json.obj overrides).Mentions id := by
  induction overrides generalizing templates with
  | nil =>
      obtain rfl := Except.ok.inj hr
      exact Or.inl h
  | cons entry rest ih =>
      obtain ⟨name, value⟩ := entry
      have hrest : (Json.obj rest).Mentions id → (Json.obj ((name, value) :: rest)).Mentions id :=
        Json.mentions_obj_of_subset (List.subset_cons_self _ _)
      cases hf : Outcome.all.find? (·.name == name) with
      | none =>
          simp only [override, hf] at hr
          exact (ih hr).imp_right hrest
      | some found =>
          simp only [override, hf] at hr
          by_cases hv : value.truthy = true
          · cases hmade : overrideTemplates found value with
            | error cause => simp [hv, hmade] at hr
            | ok made =>
                simp only [hv, if_true, hmade] at hr
                rcases ih hr with hm | hm
                · rw [get_set] at hm
                  split at hm
                  · have hvalue := mentions_of_overrideTemplates hmade hm
                    exact Or.inr (.field List.mem_cons_self hvalue)
                  · exact Or.inl hm
                · exact Or.inr (hrest hm)
          · simp only [hv] at hr
            exact (ih hr).imp_right hrest

theorem supplies_of_responseTemplates {templates : ResponseTemplates}
    (ht : responseTemplates event = .ok templates) {outcome : Outcome}
    (h : (Json.obj (templates.get outcome)).Mentions id) : event.Supplies id := by
  simp only [responseTemplates, bind_eq_ok, responseOverrides_ok_iff] at ht
  obtain ⟨overrides, ho, hr⟩ := ht
  rcases ResponseTemplates.mentions_override hr h with h | h
  · -- The default templates are texts.
    have hnone : ¬ (Json.obj (defaultResponseTemplates event)).Mentions id := by
      unfold defaultResponseTemplates
      split
      · simp [mentions_map_contentTypes]
      · simp
    cases outcome
    · exact absurd h hnone
    · exact absurd h Json.not_mentions_obj_nil
    · exact absurd h Json.not_mentions_obj_nil
  · exact ⟨event.responseTemplates, by simp [Event.supplied], Json.mentions_of_overrides? ho h⟩

end Mapping

theorem Cors.not_mentions_headers {cors : Cors} {headers : List (Text × Json)}
    (hh : cors.headers = .ok headers) : ¬ (Json.obj headers).Mentions id := by
  obtain ⟨origin, -, rfl⟩ := map_eq_ok.mp hh
  split <;> simp (disch := decide) [allowOriginHeader, allowCredentialsHeader,
    Json.mentions_obj_cons]

namespace Method

/-- A mapped response is that of an outcome, with header names for its parameters. -/
theorem mem_addCors (id : Text) {cors : Option Cors} {templates : Mapping.ResponseTemplates}
    {responses : List Json}
    (hr : addCors cors (Mapping.Outcome.all.map (integrationResponse templates)) = .ok responses)
    {response : Json} (hm : response ∈ responses) :
    ∃ outcome parameters, ¬ (Json.obj parameters).Mentions id ∧
      response = .obj [("StatusCode", .int outcome.status),
        ("SelectionPattern", .str outcome.pattern), ("ResponseParameters", .obj parameters),
        ("ResponseTemplates", .obj (templates.get outcome))] := by
  cases cors with
  | none =>
      obtain rfl := Except.ok.inj hr
      obtain ⟨outcome, -, rfl⟩ := List.mem_map.mp hm
      exact ⟨outcome, [], Json.not_mentions_obj_nil, rfl⟩
  | some settings =>
      obtain ⟨headers, hh, hadd⟩ := bind_eq_ok.mp hr
      have hall : responses = Mapping.Outcome.all.map fun outcome =>
          .obj [("StatusCode", .int outcome.status), ("SelectionPattern", .str outcome.pattern),
            ("ResponseParameters", .obj (Entries.merge [] headers)),
            ("ResponseTemplates", .obj (templates.get outcome))] :=
        (Except.ok.inj hadd).symm
      rw [hall] at hm
      obtain ⟨outcome, -, rfl⟩ := List.mem_map.mp hm
      refine ⟨outcome, Entries.merge [] headers, ?_, rfl⟩
      intro hmerge
      rcases Json.mentions_merge hmerge with h | h
      · exact Json.not_mentions_obj_nil h
      · exact Cors.not_mentions_headers hh h

/-- A declared response has no references: its headers are marked as true. -/
theorem DeclaredResponse.not_mentions_toJson {response : DeclaredResponse} :
    ¬ response.toJson.Mentions id := by
  have hheaders : ¬ (Json.obj (response.headers.map fun header => (header, .bool true))).Mentions
      id := by
    simp [Json.mentions_obj_iff]
  simp (disch := decide) [toJson, Json.mentions_obj_cons, hheaders]

/-- An integration refers to the role, and otherwise to what the event passes on. -/
theorem mentions_integration {made : Integration} (hi : integration event = .ok made)
    (h : made.toJson.Mentions id) : id = roleLogicalId ∨ event.Supplies id := by
  obtain ⟨-, hrequest, mapped, hmapped, hresponses⟩ := integration_eq_ok.mp hi
  simp only [integrationResponses, bind_eq_ok, pure_eq_ok] at hmapped
  obtain ⟨templates, htemplates, rfl⟩ := hmapped
  have hparts : id = roleLogicalId ∨ (Json.obj made.requestTemplates).Mentions id ∨
      (Json.arr made.responses).Mentions id := by
    simpa (disch := decide) [Integration.toJson, Json.mentions_obj_cons] using h
  rcases hparts with h | h | h
  · exact Or.inl h
  · exact Or.inr (Mapping.supplies_of_requestTemplates hrequest h)
  · obtain ⟨response, hm, h⟩ := Json.mentions_arr_iff.mp h
    obtain ⟨outcome, parameters, hp, rfl⟩ := mem_addCors id hresponses hm
    have hmapped : (Json.obj (templates.get outcome)).Mentions id := by
      simpa (disch := decide) [Json.mentions_obj_cons, hp] using h
    exact Or.inr (Mapping.supplies_of_responseTemplates htemplates hmapped)

end Method

/-! ## Resources -/

namespace MethodResource

theorem mentions_scope_of_scopeProperties {auth : Auth}
    (h : (Json.obj (scopeProperties auth)).Mentions id) :
    ∃ scope ∈ auth.scopes.getD [], scope.Mentions id := by
  cases hs : auth.scopes with
  | none => simp [scopeProperties, hs] at h
  | some scopes =>
      cases scopes with
      | nil => simp [scopeProperties, hs] at h
      | cons scope rest =>
          simpa (disch := decide) [scopeProperties, hs, Json.mentions_obj_cons,
            Json.mentions_arr_iff] using h

theorem mentions_authorizer_of_authorizerProperties {auth : Auth}
    (h : (Json.obj (authorizerProperties auth)).Mentions id) : auth.authorizerId.Mentions id := by
  unfold authorizerProperties at h
  split at h
  · simpa (disch := decide) [Json.mentions_obj_cons] using h
  · simp at h

theorem supplies_of_authProperties (h : (Json.obj (authProperties event.auth)).Mentions id) :
    event.Supplies id := by
  simp (disch := decide) only [authProperties, Json.mentions_obj_cons, Json.mentions_append] at h
  rcases h with h | h | h
  · exact ⟨_, by simp [Event.supplied], h⟩
  · obtain ⟨scope, hm, h⟩ := mentions_scope_of_scopeProperties h
    exact ⟨scope, by simp [Event.supplied, hm], h⟩
  · exact ⟨_, by simp [Event.supplied], mentions_authorizer_of_authorizerProperties h⟩

/-- A method refers to its place, its API and the role, and otherwise to what its event passes on.
-/
theorem mentions_toJson {api : Api} {method : MethodResource} (hm : MadeFrom api event method)
    (h : method.toJson.Mentions id) :
    (Route.resourceId api event.path).Mentions id ∨ api.restApiId.Mentions id ∨
      id = Method.roleLogicalId ∨ event.Supplies id := by
  have hparts : (Json.obj (authProperties event.auth)).Mentions id ∨
      (Route.resourceId api event.path).Mentions id ∨ api.restApiId.Mentions id ∨
      method.integration.toJson.Mentions id := by
    simpa (disch := decide) [toJson, properties, servedProperties, Json.mentions_obj_cons,
      Json.mentions_append, Method.DeclaredResponse.not_mentions_toJson, hm.auth, hm.resourceId,
      hm.restApiId] using h
  rcases hparts with h | h | h | h
  · exact Or.inr (Or.inr (Or.inr (supplies_of_authProperties h)))
  · exact Or.inl h
  · exact Or.inr (Or.inl h)
  · exact Or.inr (Or.inr (Method.mentions_integration hm.integration h))

end MethodResource

end Supplies

theorem PathResource.mentions_toJson_iff {r : PathResource} {id : Text} :
    r.toJson.Mentions id ↔ r.parentId.Mentions id ∨ r.restApiId.Mentions id := by
  simp (disch := decide) [toJson, Json.mentions_obj_cons]

theorem RestApi.mentions_toJson_iff {r : RestApi} {id : Text} :
    r.toJson.Mentions id ↔ r.name.Mentions id := by
  simp (disch := decide) [toJson, Json.mentions_obj_cons]

theorem Deployment.mentions_toJson_iff {d : Deployment} {id : Text} :
    d.toJson.Mentions id ↔ d.restApiId.Mentions id ∨ d.stageName.Mentions id := by
  simp (disch := decide) [toJson, Json.mentions_obj_cons]

theorem Role.mentions_toJson_iff {r : Role} {id : Text} :
    r.toJson.Mentions id ↔ ∃ table ∈ r.tables, table.Mentions id := by
  simp (disch := decide) [toJson, tableArn, Json.mentions_obj_cons]

end TableGateway
