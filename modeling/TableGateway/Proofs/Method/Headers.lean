import TableGateway.Proofs.Method.Making
import TableGateway.Proofs.Resource

/-! # Headers on both sides

The responses that a method maps and those that it declares come from two builders, and still have
the same status codes and the same headers. Headers are mapped over what a response has: all else
stays, and mapping them again changes nothing. -/

namespace TableGateway

/-- The fields of an object; other values have none. -/
def Json.fields : Json → List (Text × Json)
  | obj fields => fields
  | _ => []

theorem Cors.keys_headers {cors : Cors} {headers : List (Text × Json)}
    (h : cors.headers = .ok headers) :
    Entries.keys headers = if cors.allowCredentials.truthy
      then [allowOriginHeader, allowCredentialsHeader] else [allowOriginHeader] := by
  obtain ⟨origin, -, rfl⟩ := map_eq_ok.mp h
  split <;> rfl

/-- The headers of cross-origin settings have different names. -/
theorem Cors.nodup_keys_headers {cors : Cors} {headers : List (Text × Json)}
    (h : cors.headers = .ok headers) : (Entries.keys headers).Nodup := by
  have hne : allowOriginHeader ≠ allowCredentialsHeader := Text.ofString_ne (by decide)
  rw [keys_headers h]
  split <;> simp [hne]

namespace Method

/-! ## Responses -/

/-- The parameters of a response; one without them has none. -/
def parameters (response : Json) : List (Text × Json) :=
  (response.field "ResponseParameters").fields

/-- Whether a value is a response: an object whose parameters are an object, if they are there. -/
def IsResponse (response : Json) : Prop :=
  ∃ fields, response = .obj fields ∧ ∀ value,
    Entries.get? fields "ResponseParameters" = some value → ∃ parameters, value = .obj parameters

/-- A response with headers mapped over its parameters. -/
def withHeaders (headers : List (Text × Json)) (response : Json) : Json :=
  .obj (Entries.put "ResponseParameters"
    (.obj (Entries.merge (parameters response) headers)) response.fields)

/-- The headers that settings map, none without settings. -/
def headersOf : Option Cors → Except Fault (List (Text × Json))
  | none => .ok []
  | some cors => cors.headers

theorem addHeaders_of_isResponse (headers : List (Text × Json)) {response : Json}
    (h : IsResponse response) :
    addHeaders headers response = .ok (withHeaders headers response) := by
  obtain ⟨fields, rfl, hparameters⟩ := h
  cases hg : Entries.get? fields "ResponseParameters" with
  | none => simp [addHeaders, withHeaders, parameters, Json.field, Json.fields, hg]
  | some value =>
      obtain ⟨parameters, rfl⟩ := hparameters value hg
      simp [addHeaders, withHeaders, Method.parameters, Json.field, Json.fields, hg]

theorem isResponse_withHeaders (headers : List (Text × Json)) (response : Json) :
    IsResponse (withHeaders headers response) := by
  refine ⟨_, rfl, ?_⟩
  intro value hv
  rw [Entries.get?_put_self, Option.some.injEq] at hv
  exact ⟨_, hv.symm⟩

@[simp] theorem parameters_withHeaders (headers : List (Text × Json)) (response : Json) :
    parameters (withHeaders headers response) = Entries.merge (parameters response) headers := by
  simp [parameters, withHeaders, Json.field, Json.fields]

/-- Headers that are mapped already are not mapped again. -/
theorem withHeaders_withHeaders {headers : List (Text × Json)}
    (hn : (Entries.keys headers).Nodup) (response : Json) :
    withHeaders headers (withHeaders headers response) = withHeaders headers response := by
  -- After the first merge each header is found with its value.
  have hmerge : Entries.merge (Entries.merge (parameters response) headers) headers =
      Entries.merge (parameters response) headers := by
    apply Entries.merge_of_get?
    intro header hm
    exact Entries.get?_merge_of_get? hn (Entries.get?_of_mem hn hm)
  conv_lhs => rw [withHeaders, parameters_withHeaders, hmerge]
  rw [withHeaders, Json.fields, Entries.put_of_get? (Entries.get?_put_self _ _ _)]

/-- What mapping headers makes of a response. All other fields and all other parameters stay, in
their order. -/
structure Keeps (headers : List (Text × Json)) (response mapped : Json) : Prop where
  isResponse : IsResponse mapped
  fields : mapped.fields.filter (·.1 ≠ ("ResponseParameters" : Text)) =
    response.fields.filter (·.1 ≠ ("ResponseParameters" : Text))
  parameters : (parameters mapped).filter (·.1 ∉ Entries.keys headers) =
    (Method.parameters response).filter (·.1 ∉ Entries.keys headers)
  headers : ∀ header ∈ headers,
    Entries.get? (Method.parameters mapped) header.1 = some header.2

theorem keeps_withHeaders {headers : List (Text × Json)} (hn : (Entries.keys headers).Nodup)
    (response : Json) : Keeps headers response (withHeaders headers response) where
  isResponse := isResponse_withHeaders headers response
  fields := Entries.filter_put (fun name => name ≠ "ResponseParameters") (by simp) _ _
  parameters := by
    rw [parameters_withHeaders]
    refine Entries.filter_merge (fun name => name ∉ Entries.keys headers) _ ?_
    intro key hk
    simpa using hk
  headers := by
    intro header hm
    rw [parameters_withHeaders]
    exact Entries.get?_merge_of_get? hn (Entries.get?_of_mem hn hm)

/-! ## Mapping headers in all responses -/

theorem nodup_keys_headersOf {cors : Option Cors} {headers : List (Text × Json)}
    (h : headersOf cors = .ok headers) : (Entries.keys headers).Nodup := by
  cases cors with
  | none =>
      obtain rfl := Except.ok.inj h
      exact List.nodup_nil
  | some settings => exact Cors.nodup_keys_headers h

theorem headersOf_ok_iff {cors : Option Cors} :
    (∃ headers, headersOf cors = .ok headers) ↔
      ∀ settings, cors = some settings → settings.Joinable := by
  cases cors with
  | none => simp [headersOf]
  | some settings => simpa [headersOf] using Cors.headers_ok_iff

theorem addCors_some {settings : Cors} {headers : List (Text × Json)}
    (hh : settings.headers = .ok headers) {responses : List Json}
    (hr : ∀ response ∈ responses, IsResponse response) :
    addCors (some settings) responses = .ok (responses.map (withHeaders headers)) := by
  have hm := mapM_eq_ok_map fun response hm => addHeaders_of_isResponse headers (hr response hm)
  simp only [addCors, hh, bind, Except.bind, hm]

/-- Without settings there is nothing to keep, and a response keeps itself. -/
theorem keeps_self {response : Json} (h : IsResponse response) : Keeps [] response response :=
  ⟨h, rfl, rfl, by simp⟩

/-- Mapping headers keeps all else of each response, and doing it again changes nothing. -/
theorem addCors_keeps {cors : Option Cors} {headers : List (Text × Json)}
    (hh : headersOf cors = .ok headers) {responses : List Json}
    (hr : ∀ response ∈ responses, IsResponse response) :
    ∃ mapped, addCors cors responses = .ok mapped ∧
      List.Forall₂ (Keeps headers) responses mapped ∧ addCors cors mapped = .ok mapped := by
  cases cors with
  | none =>
      obtain rfl := Except.ok.inj hh
      have hkeeps : List.Forall₂ (Keeps []) responses responses :=
        List.forall₂_same.mpr fun response hm => keeps_self (hr response hm)
      exact ⟨responses, rfl, hkeeps, rfl⟩
  | some settings =>
      have hn := Cors.nodup_keys_headers hh
      refine ⟨_, addCors_some hh hr, ?_, ?_⟩
      · exact List.forall₂_map_right_iff.mpr
          (List.forall₂_same.mpr fun response _ => keeps_withHeaders hn response)
      · rw [addCors_some hh, List.map_map]
        · exact congrArg Except.ok (List.map_congr_left fun response _ =>
            withHeaders_withHeaders hn response)
        · intro response hm
          obtain ⟨before, -, rfl⟩ := List.mem_map.mp hm
          exact isResponse_withHeaders headers before

/-- Settings that map no headers fail for the responses as well. -/
theorem exists_headersOf {cors : Option Cors} {responses mapped : List Json}
    (h : addCors cors responses = .ok mapped) : ∃ headers, headersOf cors = .ok headers := by
  cases cors with
  | none => exact ⟨[], rfl⟩
  | some settings =>
      obtain ⟨headers, hh, -⟩ := bind_eq_ok.mp h
      exact ⟨headers, hh⟩

/-! ## Mapped and declared -/

/-- Whether a mapped response and a declared one go together: they have one status code, and the
headers that the one maps are those that the other declares as true. -/
structure Agree (mapped declared : Json) : Prop where
  responses : IsResponse mapped ∧ IsResponse declared
  status : mapped.field "StatusCode" = declared.field "StatusCode"
  headers : Entries.keys (parameters mapped) = Entries.keys (parameters declared)
  flags : ∀ parameter ∈ parameters declared, parameter.2 = .bool true

theorem isResponse_declared (response : DeclaredResponse) : IsResponse response.toJson :=
  ⟨_, rfl, fun _ hv => ⟨_, (Option.some.inj hv).symm⟩⟩

theorem parameters_declared (response : DeclaredResponse) :
    parameters response.toJson = response.headers.map (·, .bool true) := rfl

/-- The responses of one outcome on the two sides. -/
theorem agree_of_outcome {headers : List (Text × Json)} (hn : (Entries.keys headers).Nodup)
    (templates : Mapping.ResponseTemplates) (outcome : Mapping.Outcome) :
    Agree (withHeaders headers (integrationResponse templates outcome))
      (DeclaredResponse.toJson ⟨Entries.keys headers, outcome.status⟩) where
  responses := ⟨isResponse_withHeaders headers _, isResponse_declared _⟩
  status := rfl
  headers := by
    have hp : parameters (integrationResponse templates outcome) = [] := rfl
    rw [parameters_withHeaders, hp, Entries.merge_eq_append hn (by simp), parameters_declared]
    simp [Entries.keys, Function.comp_def]
  flags := by
    rw [parameters_declared]
    simp

theorem isResponse_integrationResponse (templates : Mapping.ResponseTemplates)
    (outcome : Mapping.Outcome) : IsResponse (integrationResponse templates outcome) :=
  ⟨_, rfl, fun _ hv => ⟨_, (Option.some.inj hv).symm⟩⟩

theorem addCors_integrationResponses {cors : Option Cors} {headers : List (Text × Json)}
    (hh : headersOf cors = .ok headers) (templates : Mapping.ResponseTemplates) :
    addCors cors (Mapping.Outcome.all.map (integrationResponse templates)) =
      .ok (Mapping.Outcome.all.map fun outcome =>
        withHeaders headers (integrationResponse templates outcome)) := by
  cases cors with
  | none =>
      obtain rfl := Except.ok.inj hh
      rfl
  | some settings =>
      rw [addCors_some hh, List.map_map]
      · rfl
      · exact List.forall_mem_map.mpr fun outcome _ =>
          isResponse_integrationResponse templates outcome

theorem declaredResponses_eq (event : Event) :
    declaredResponses event = (headersOf event.cors).map fun headers =>
      Mapping.Outcome.all.map fun outcome => ⟨Entries.keys headers, outcome.status⟩ := by
  unfold declaredResponses headersOf
  cases event.cors <;> rfl

/-- The two lists of a method come from the same headers, one response for each outcome. -/
theorem responses_of_ofEvent {api : Api} {event : Event} {method : MethodResource}
    (h : MethodResource.ofEvent api event = .ok method) :
    ∃ headers templates, headersOf event.cors = .ok headers ∧
      method.integration.responses = Mapping.Outcome.all.map (fun outcome =>
        withHeaders headers (integrationResponse templates outcome)) ∧
      method.responses =
        Mapping.Outcome.all.map fun outcome => ⟨Entries.keys headers, outcome.status⟩ := by
  simp only [MethodResource.ofEvent, bind_eq_ok, mapError_eq_ok, pure_eq_ok] at h
  obtain ⟨made, hmade, declared, hdeclared, rfl⟩ := h
  obtain ⟨-, -, mapped, hmapped, hcors⟩ := integration_eq_ok.mp hmade
  simp only [integrationResponses, bind_eq_ok, pure_eq_ok] at hmapped
  obtain ⟨templates, -, rfl⟩ := hmapped
  rw [declaredResponses_eq, map_eq_ok] at hdeclared
  obtain ⟨headers, hh, rfl⟩ := hdeclared
  rw [addCors_integrationResponses hh, Except.ok.injEq] at hcors
  exact ⟨headers, templates, hh, hcors.symm, rfl⟩

/-- The responses that a method maps and those that it declares have the same status codes in the
same order, and the same headers for each. Mapping headers in any responses keeps all else of each,
and mapping them again changes nothing; it fails only for origins that cannot be joined. -/
theorem headers_agree :
    (∀ api event method, MethodResource.ofEvent api event = .ok method →
      ∃ mapped declared,
        ((Resource.method method).property "Integration").field "IntegrationResponses" =
          .arr mapped ∧
        (Resource.method method).property "MethodResponses" = .arr declared ∧
        mapped.map (·.field "StatusCode") = declared.map (·.field "StatusCode") ∧
        List.Forall₂ Agree mapped declared) ∧
    ∀ cors responses, (∀ response ∈ responses, IsResponse response) →
      ((∃ mapped, addCors cors responses = .ok mapped) ↔
        ∀ settings, cors = some settings → settings.Joinable) ∧
      ∀ mapped, addCors cors responses = .ok mapped →
        ∃ headers, headersOf cors = .ok headers ∧
          List.Forall₂ (Keeps headers) responses mapped ∧ addCors cors mapped = .ok mapped := by
  refine ⟨?_, ?_⟩
  · intro api event method h
    obtain ⟨headers, templates, hh, hmapped, hdeclared⟩ := responses_of_ofEvent h
    have hn := nodup_keys_headersOf hh
    refine ⟨method.integration.responses, _, ?_, MethodResource.property_responses method, ?_, ?_⟩
    · rw [MethodResource.property_integration]
      rfl
    · rw [hmapped, hdeclared]
      rfl
    · rw [hmapped, hdeclared, List.forall₂_map_right_iff, List.forall₂_map_right_iff,
        List.forall₂_map_left_iff]
      exact List.forall₂_same.mpr fun outcome _ => agree_of_outcome hn templates outcome
  · intro cors responses hr
    rw [← headersOf_ok_iff]
    refine ⟨⟨fun ⟨mapped, hm⟩ => exists_headersOf hm, ?_⟩, ?_⟩
    · rintro ⟨headers, hh⟩
      obtain ⟨mapped, hm, -⟩ := addCors_keeps hh hr
      exact ⟨mapped, hm⟩
    · intro mapped hm
      obtain ⟨headers, hh⟩ := exists_headersOf hm
      obtain ⟨found, hfound, hkeeps, hagain⟩ := addCors_keeps hh hr
      obtain rfl : found = mapped := Except.ok.inj (hfound.symm.trans hm)
      exact ⟨headers, hh, hkeeps, hagain⟩

/-- Reading a user for two origins, with credentials. -/
def readShared : Event where
  method := "get"
  path := "users/{id}"
  action := .known .getItem
  tableName := .str "Users"
  cors := some {
    origins := [.str "https://a.example", .str "https://b.example"]
    allowCredentials := .bool true }

/-- A response with parameters of its own, one of which a header is mapped over, and one without
parameters. -/
def ownResponses : List Json :=
  [.obj [("StatusCode", .int 200), ("ResponseParameters",
      .obj [("method.response.header.Access-Control-Allow-Origin", .str "'old'"),
        ("method.response.header.Age", .str "'0'")]), ("ResponseTemplates", .obj [])],
    .obj [("StatusCode", .int 400)]]

theorem headers_agree_readShared :
    (∃ method mapped declared, MethodResource.ofEvent Api.own readShared = .ok method ∧
      ((Resource.method method).property "Integration").field "IntegrationResponses" =
        .arr mapped ∧
      (Resource.method method).property "MethodResponses" = .arr declared ∧
      List.Forall₂ Agree mapped declared) ∧
    ∃ headers mapped, headersOf readShared.cors = .ok headers ∧ headers.length = 2 ∧
      addCors readShared.cors ownResponses = .ok mapped ∧
      List.Forall₂ (Keeps headers) ownResponses mapped ∧
      addCors readShared.cors mapped = .ok mapped := by
  obtain ⟨hagree, hkeeps⟩ := headers_agree
  have hresponses : ∀ response ∈ ownResponses, IsResponse response := by
    intro response hm
    rcases List.mem_cons.mp hm with rfl | hm
    · exact ⟨_, rfl, fun _ hv => ⟨_, (Option.some.inj hv).symm⟩⟩
    · obtain rfl := List.mem_singleton.mp hm
      exact ⟨_, rfl, nofun⟩
  obtain ⟨method, hmethod⟩ : ∃ method, MethodResource.ofEvent Api.own readShared = .ok method :=
    ⟨_, rfl⟩
  obtain ⟨mapped, declared, hm, hd, -, ha⟩ := hagree _ _ method hmethod
  obtain ⟨found, hfound⟩ : ∃ found, addCors readShared.cors ownResponses = .ok found := ⟨_, rfl⟩
  obtain ⟨headers, hh, hk, hagain⟩ := (hkeeps _ _ hresponses).2 found hfound
  refine ⟨⟨method, mapped, declared, hmethod, hm, hd, ha⟩, headers, found, hh, ?_, hfound, hk,
    hagain⟩
  have hlength := congrArg List.length (Cors.keys_headers hh)
  simpa [Entries.keys, readShared, Json.truthy] using hlength

end Method

end TableGateway
