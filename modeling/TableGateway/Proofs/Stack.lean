import TableGateway.Proofs.Reference
import TableGateway.Proofs.Role
import TableGateway.Stack

/-! # References in a stack

The map of a stack is the disjoint union of what was compiled, the role and the deployment. With an
API of its own it is closed: every reference that the stack makes names an entry of the right type.
-/

namespace TableGateway

/-! ## The union of three maps -/

namespace Compile.Intact

variable {api : Api} {given : ResourceMap} {result : Result}

/-- Every compiled key belongs to the REST API, a path or a method. -/
theorem idFamily_mem (hgiven : Bare given) (h : Intact api given result) {key : Text}
    (hk : key ∈ Entries.keys result.resources) :
    Route.idFamily key ∈ (["ApiGatewayRest", "ApiGatewayReso", "ApiGatewayMeth"] : List Text) := by
  obtain ⟨value, hg⟩ := Entries.exists_get?_of_mem_keys hk
  rcases h.origin key value hg with hv | hid | ⟨event, -, resource, hm, -⟩
  · rw [(hgiven.restApi_of_get? hv).1, Route.idFamily_restApi]
    decide
  · rw [h.methodIds_eq] at hid
    obtain ⟨event, -, rfl⟩ := List.mem_map.mp hid
    rw [Event.methodLogicalId, Route.idFamily_methodLogicalId]
    decide
  · rw [Route.idFamily_of_mem_keys (Entries.mem_keys_of_mem hm)]
    decide

theorem not_mem_keys (hgiven : Bare given) (h : Intact api given result) {key : Text}
    (hf : Route.idFamily key ∉
      (["ApiGatewayRest", "ApiGatewayReso", "ApiGatewayMeth"] : List Text)) :
    key ∉ Entries.keys result.resources :=
  fun hk => hf (h.idFamily_mem hgiven hk)

end Compile.Intact

namespace ResourceMap

theorem mem_ofRole_iff {events : List Event} {entry : Text × Resource} :
    entry ∈ ofRole events ↔
      ∃ role, Role.ofEvents? events = some role ∧ entry = (Method.roleLogicalId, .role role) := by
  simp [ofRole, eq_comm]

theorem mem_ofDeployment_iff {api : Api} {stageName : Json} {ids : List Text}
    {entry : Text × Resource} :
    entry ∈ ofDeployment api stageName ids ↔
      ids ≠ [] ∧ entry = (deploymentLogicalId, .deployment ⟨api.restApiId, stageName, ids⟩) := by
  by_cases h : ids = [] <;> simp [ofDeployment, Deployment.ofMethods?, h]

theorem keys_ofRole_sublist (events : List Event) :
    (Entries.keys (ofRole events)).Sublist [Method.roleLogicalId] := by
  unfold ofRole
  cases Role.ofEvents? events <;> simp

theorem keys_ofDeployment_sublist (api : Api) (stageName : Json) (ids : List Text) :
    (Entries.keys (ofDeployment api stageName ids)).Sublist [deploymentLogicalId] := by
  unfold ofDeployment
  cases Deployment.ofMethods? api stageName ids <;> simp

end ResourceMap

namespace Compile.Intact

variable {api : Api} {given : ResourceMap} {result : Result}

/-- The ID of a role is none of those that were compiled. -/
theorem not_mem_keys_of_role (hgiven : Bare given) (h : Intact api given result)
    {events : List Event} {id : Text} (hid : id ∈ Entries.keys (ResourceMap.ofRole events)) :
    id ∉ Entries.keys result.resources := by
  obtain rfl := List.mem_singleton.mp ((ResourceMap.keys_ofRole_sublist events).subset hid)
  exact h.not_mem_keys hgiven (by decide)

/-- The ID of a deployment is none of those, and not the one of a role either. -/
theorem not_mem_keys_of_deployment (hgiven : Bare given) (h : Intact api given result)
    {stageName : Json} {ids : List Text} {id : Text}
    (hid : id ∈ Entries.keys (ResourceMap.ofDeployment api stageName ids)) (events : List Event) :
    id ∉ Entries.keys result.resources ∧ id ∉ Entries.keys (ResourceMap.ofRole events) := by
  have hdeployment := ResourceMap.keys_ofDeployment_sublist api stageName ids
  obtain rfl := List.mem_singleton.mp (hdeployment.subset hid)
  refine ⟨h.not_mem_keys hgiven (by decide), ?_⟩
  intro hr
  have hrole := (ResourceMap.keys_ofRole_sublist events).subset hr
  exact absurd (List.mem_singleton.mp hrole) (by decide)

/-- Role and deployment have IDs of their own, so they are written over nothing. -/
theorem assemble_eq (hgiven : Bare given) (h : Intact api given result) (stageName : Json) :
    Stack.assemble api stageName result =
      result.resources ++ ResourceMap.ofRole result.events ++
        ResourceMap.ofDeployment api stageName result.methodIds := by
  have hrole := ResourceMap.keys_ofRole_sublist result.events
  have hdeployment := ResourceMap.keys_ofDeployment_sublist api stageName result.methodIds
  have hfirst : Entries.merge result.resources (ResourceMap.ofRole result.events) =
      result.resources ++ ResourceMap.ofRole result.events :=
    Entries.merge_eq_append (hrole.nodup (by decide)) fun _ => h.not_mem_keys_of_role hgiven
  unfold Stack.assemble
  rw [hfirst]
  refine Entries.merge_eq_append (hdeployment.nodup (by decide)) ?_
  intro key hk
  rw [Entries.keys_append, List.mem_append, not_or]
  exact h.not_mem_keys_of_deployment hgiven hk result.events

/-- What was compiled is found in the stack. -/
theorem get?_assemble (hgiven : Bare given) (h : Intact api given result) (stageName : Json)
    {id : Text} {entry : Resource} (hg : Entries.get? result.resources id = some entry) :
    Entries.get? (Stack.assemble api stageName result) id = some entry := by
  rw [h.assemble_eq hgiven, List.append_assoc, Entries.get?_append, hg, Option.some_or]

theorem cases_of_get?_assemble (hgiven : Bare given) (h : Intact api given result)
    {stageName : Json} {id : Text} {entry : Resource}
    (hg : Entries.get? (Stack.assemble api stageName result) id = some entry) :
    Entries.get? result.resources id = some entry ∨
      (∃ role, Role.ofEvents? result.events = some role ∧ entry = .role role) ∨
      entry = .deployment ⟨api.restApiId, stageName, result.methodIds⟩ := by
  rw [h.assemble_eq hgiven, Entries.get?_append, Entries.get?_append, Option.or_eq_some_iff,
    Option.or_eq_some_iff] at hg
  rcases hg with (hg | ⟨-, hg⟩) | ⟨-, hg⟩
  · exact Or.inl hg
  · obtain ⟨role, hr, he⟩ := ResourceMap.mem_ofRole_iff.mp (Entries.mem_of_get? hg)
    exact Or.inr (Or.inl ⟨role, hr, (Prod.mk.inj he).2⟩)
  · obtain ⟨-, he⟩ := ResourceMap.mem_ofDeployment_iff.mp (Entries.mem_of_get? hg)
    exact Or.inr (Or.inr (Prod.mk.inj he).2)

/-- What a map has was given, is a method made from a compiled event, or is a resource on the way to
the path of one. -/
theorem made_of_get? (h : Intact api given result) {id : Text} {entry : Resource}
    (hg : Entries.get? result.resources id = some entry) :
    Entries.get? given id = some entry ∨
      (∃ compiled ∈ result.compiled, ∃ method,
        MethodResource.MadeFrom api compiled.event method ∧ entry = .method method) ∨
      ∃ event ∈ result.events, ∃ parents part, parents <+: Text.parts event.path ∧
        entry = .path ⟨Route.partsRef api parents, part, api.restApiId⟩ := by
  rcases h.origin id entry hg with hv | hid | ⟨event, he, resource, hm, rfl⟩
  · exact Or.inl hv
  · obtain ⟨compiled, hc, rfl⟩ := List.mem_map.mp hid
    obtain ⟨method, hmethod, hmade⟩ := h.exists_method hc
    obtain rfl := Option.some.inj (hmethod.symm.trans hg)
    exact Or.inr (Or.inl ⟨compiled, hc, method, hmade, rfl⟩)
  · rw [Route.resources_eq] at hm
    obtain ⟨parents, part, hf, he'⟩ := Route.exists_prefix_of_mem hm
    obtain ⟨-, rfl⟩ := Prod.mk.inj he'
    have hparents := (List.prefix_append parents [part]).trans hf
    exact Or.inr (Or.inr ⟨event, he, parents, part, hparents, rfl⟩)

end Compile.Intact

/-! ## Entries and what they refer to -/

/-- The entries of a stack, as they were made. -/
inductive Stack.Made (api : Api) (given : ResourceMap) (stageName : Json)
    (result : Compile.Result) : Resource → Prop
  | restApi {id name} (hg : Entries.get? given id = some (.restApi ⟨name⟩)) :
      Made api given stageName result (.restApi ⟨name⟩)
  | path {event} (he : event ∈ result.events) {parents part}
      (hf : parents <+: Text.parts event.path) : Made api given stageName result
        (.path ⟨Route.partsRef api parents, part, api.restApiId⟩)
  | method {compiled} (hc : compiled ∈ result.compiled) {method}
      (hm : MethodResource.MadeFrom api compiled.event method) :
      Made api given stageName result (.method method)
  | role {role} (hr : Role.ofEvents? result.events = some role) :
      Made api given stageName result (.role role)
  | deployment : Made api given stageName result
      (.deployment ⟨api.restApiId, stageName, result.methodIds⟩)

/-- What the reference to an ID that is found in an entry of a stack is: it is in the name of its
API, in the ID of the API or in the place of a path, it is that to the role, or an event supplies
it. -/
inductive Stack.Refers (api : Api) (given : ResourceMap) (result : Compile.Result) (id : Text) :
    Prop
  | name {key name} (hg : Entries.get? given key = some (.restApi ⟨name⟩))
      (hm : name.Mentions id) : Refers api given result id
  | api (hm : api.restApiId.Mentions id) : Refers api given result id
  | place {event} (he : event ∈ result.events) {front} (hf : front <+: Text.parts event.path)
      (hm : (Route.partsRef api front).Mentions id) : Refers api given result id
  | role {compiled} (hc : compiled ∈ result.compiled) (hid : id = Method.roleLogicalId) :
      Refers api given result id
  | event {event} (he : event ∈ result.events) (hs : event.Supplies id) :
      Refers api given result id

/-- Tables of the role are tables of compiled events. -/
theorem Compile.Intact.supplies_of_role {api : Api} {given : ResourceMap} {result : Result}
    (h : Intact api given result) {role : Role} (hr : Role.ofEvents? result.events = some role)
    {id : Text} (hm : role.toJson.Mentions id) : ∃ event ∈ result.events, event.Supplies id := by
  obtain ⟨table, ht, hm⟩ := Role.mentions_toJson_iff.mp hm
  obtain ⟨event, he, harn⟩ := (h.used hr).used _ (List.mem_map_of_mem ht)
  have htable : table = event.tableName := by simpa [Role.tableArn, Intrinsic.sub] using harn
  exact ⟨event, he, Event.supplies_of_tableName (htable ▸ hm)⟩

/-- Everything in a stack that starts from nothing, or from its API alone, was made. -/
theorem Compile.Intact.made_of_get?_assemble {api : Api} {given : ResourceMap} {result : Result}
    (hgiven : Bare given) (h : Intact api given result) {stageName : Json} {id : Text}
    {entry : Resource} (hg : Entries.get? (Stack.assemble api stageName result) id = some entry) :
    Stack.Made api given stageName result entry := by
  rcases h.cases_of_get?_assemble hgiven hg with hg | ⟨role, hr, rfl⟩ | rfl
  · rcases h.made_of_get? hg with
      hv | ⟨compiled, hc, method, hm, rfl⟩ | ⟨event, he, parents, part, hf, rfl⟩
    · obtain ⟨-, name, rfl⟩ := hgiven.restApi_of_get? hv
      exact .restApi hv
    · exact .method hc hm
    · exact .path he hf
  · exact .role hr
  · exact .deployment

namespace Stack.Made

variable {api : Api} {given : ResourceMap} {stageName : Json} {result : Compile.Result}
  {entry : Resource}

theorem ne_given (h : Made api given stageName result entry) (body : Json) :
    entry ≠ .given body := by
  cases h <;> nofun

theorem path_refs (h : Made api given stageName result entry)
    (ht : entry.type = .str "AWS::ApiGateway::Resource") :
    entry.property "RestApiId" = api.restApiId ∧
      ∃ event ∈ result.events, ∃ front, front <+: Text.parts event.path ∧
        entry.property "ParentId" = Route.partsRef api front := by
  obtain ⟨made, rfl⟩ := Resource.exists_path_of_type h.ne_given ht
  cases h with
  | path he hf => exact ⟨rfl, _, he, _, hf, rfl⟩

theorem method_refs (h : Made api given stageName result entry)
    (ht : entry.type = .str "AWS::ApiGateway::Method") :
    entry.property "RestApiId" = api.restApiId ∧
      (∃ compiled ∈ result.compiled,
        entry.property "ResourceId" = Route.partsRef api (Text.parts compiled.event.path)) ∧
      (entry.property "Integration").field "Credentials" =
        Intrinsic.getAtt Method.roleLogicalId "Arn" := by
  obtain ⟨made, rfl⟩ := Resource.exists_method_of_type h.ne_given ht
  cases h with
  | method hc hm =>
      rw [made.property_restApiId, made.property_resourceId, made.property_integration,
        hm.restApiId, hm.resourceId, Route.resourceId_eq]
      exact ⟨rfl, ⟨_, hc, rfl⟩, rfl⟩

theorem deployment_refs (h : Made api given stageName result entry)
    (ht : entry.type = .str "AWS::ApiGateway::Deployment") :
    entry.property "RestApiId" = api.restApiId ∧
      entry.toJson.field "DependsOn" = .arr (result.methodIds.map .str) := by
  obtain ⟨made, rfl⟩ := Resource.exists_deployment_of_type h.ne_given ht
  cases h with
  | deployment => exact ⟨rfl, rfl⟩

/-- No entry has other references than these. -/
theorem refers {stage : Text} (h : Made api given (.str stage) result entry)
    (hi : Compile.Intact api given result) {id : Text} (hm : entry.toJson.Mentions id) :
    Refers api given result id := by
  cases h with
  | restApi hg => exact .name hg (RestApi.mentions_toJson_iff.mp hm)
  | path he hf =>
      rcases PathResource.mentions_toJson_iff.mp hm with hm | hm
      · exact .place he hf hm
      · exact .api hm
  | method hc hmade =>
      rcases MethodResource.mentions_toJson hmade hm with hm | hm | hm | hm
      · rw [Route.resourceId_eq] at hm
        exact .place (List.mem_map_of_mem hc) List.prefix_rfl hm
      · exact .api hm
      · exact .role hc hm
      · exact .event (List.mem_map_of_mem hc) hm
  | role hr =>
      obtain ⟨event, he, hs⟩ := hi.supplies_of_role hr hm
      exact .event he hs
  | deployment =>
      rcases Deployment.mentions_toJson_iff.mp hm with hm | hm
      · exact .api hm
      · cases hm

end Stack.Made

/-! ## References that resolve -/

/-- An entry of a type stands under this ID. -/
def ResourceMap.Holds (resources : ResourceMap) (type id : Text) : Prop :=
  ∃ entry, Entries.get? resources id = some entry ∧ entry.type = .str type

/-- A place in the tree of paths: the root of the stack's own API, or a path resource of the map. -/
def ResourceMap.Place (resources : ResourceMap) (value : Json) : Prop :=
  value = Intrinsic.getAtt restApiLogicalId "RootResourceId" ∨
    ∃ id, value = Intrinsic.ref id ∧ resources.Holds "AWS::ApiGateway::Resource" id

namespace Stack

/-- An ID that a value from outside refers to: the name of the API or a value of a compiled event.
-/
def Supplied (input : StackInput) (stack : Stack) (id : Text) : Prop :=
  input.apiName.Mentions id ∨ ∃ event ∈ stack.result.events, event.Supplies id

/-- The map of a stack is closed under the references that the stack makes. -/
structure Closed (input : StackInput) (stack : Stack) : Prop where
  restApi : stack.resources.Holds "AWS::ApiGateway::RestApi" restApiLogicalId
  path : ∀ id entry, Entries.get? stack.resources id = some entry →
    entry.type = .str "AWS::ApiGateway::Resource" →
    entry.property "RestApiId" = Intrinsic.ref restApiLogicalId ∧
      stack.resources.Place (entry.property "ParentId")
  method : ∀ id entry, Entries.get? stack.resources id = some entry →
    entry.type = .str "AWS::ApiGateway::Method" →
    entry.property "RestApiId" = Intrinsic.ref restApiLogicalId ∧
      stack.resources.Place (entry.property "ResourceId") ∧
      (entry.property "Integration").field "Credentials" =
        Intrinsic.getAtt Method.roleLogicalId "Arn" ∧
      stack.resources.Holds "AWS::IAM::Role" Method.roleLogicalId
  deployment : ∀ id entry, Entries.get? stack.resources id = some entry →
    entry.type = .str "AWS::ApiGateway::Deployment" →
    entry.property "RestApiId" = Intrinsic.ref restApiLogicalId ∧
      ∃ ids : List Text, entry.toJson.field "DependsOn" = .arr (ids.map .str) ∧
        ∀ method ∈ ids, stack.resources.Holds "AWS::ApiGateway::Method" method
  every : ∀ id entry, Entries.get? stack.resources id = some entry →
    ∀ target, entry.toJson.Mentions target →
      target ∈ Entries.keys stack.resources ∨ Supplied input stack target

end Stack

namespace Compile.Intact

variable {name : Json} {result : Result}

/-- The reference to a front of the path of a compiled event resolves. -/
theorem place_partsRef (h : Intact Api.own (.ownApi name) result) (stageName : Json)
    {event : Event} (he : event ∈ result.events) {front : List Text}
    (hf : front <+: Text.parts event.path) :
    (Stack.assemble Api.own stageName result).Place (Route.partsRef Api.own front) := by
  by_cases hne : front = []
  · subst hne
    exact Or.inl rfl
  · have hk : Route.partsId front ∈ Entries.keys (Route.resources Api.own event.path) := by
      rw [Route.resources_eq, Route.mem_keys_partsResources]
      exact ⟨front, hf, hne, rfl⟩
    obtain ⟨needed, hn⟩ := Entries.exists_get?_of_mem_keys hk
    obtain ⟨held, hg, -⟩ := h.paths event he _ (Entries.mem_of_get? hn)
    -- Another event may have brought what stands there, but it is a path resource.
    obtain ⟨-, -, resource, -, rfl⟩ := h.path_origin (.ownApi name) hk hg
    refine Or.inr ⟨_, Route.partsRef_of_ne_nil Api.own hne, .path resource, ?_, rfl⟩
    exact h.get?_assemble (.ownApi name) stageName hg

theorem holds_restApi (h : Intact Api.own (.ownApi name) result) (stageName : Json) :
    (Stack.assemble Api.own stageName result).Holds "AWS::ApiGateway::RestApi"
      restApiLogicalId :=
  ⟨_, h.get?_assemble (.ownApi name) stageName (h.kept _ (.restApi ⟨name⟩) rfl), rfl⟩

theorem holds_method (h : Intact Api.own (.ownApi name) result) (stageName : Json) {id : Text}
    (hid : id ∈ result.methodIds) :
    (Stack.assemble Api.own stageName result).Holds "AWS::ApiGateway::Method" id := by
  obtain ⟨compiled, hc, rfl⟩ := List.mem_map.mp hid
  obtain ⟨method, hg, -⟩ := h.exists_method hc
  exact ⟨_, h.get?_assemble (.ownApi name) stageName hg, rfl⟩

theorem holds_role (h : Intact Api.own (.ownApi name) result) (stageName : Json)
    {compiled : Compiled} (hc : compiled ∈ result.compiled) :
    (Stack.assemble Api.own stageName result).Holds "AWS::IAM::Role" Method.roleLogicalId := by
  obtain ⟨entry, hg⟩ := Entries.exists_get?_of_mem_keys (h.roleLogicalId_mem_keys hc)
  obtain ⟨role, -, he⟩ := ResourceMap.mem_ofRole_iff.mp (Entries.mem_of_get? hg)
  obtain ⟨-, rfl⟩ := Prod.mk.inj he
  have hnone : Entries.get? result.resources Method.roleLogicalId = none :=
    Entries.get?_eq_none_iff.mpr (h.not_mem_keys (.ownApi name) (by decide))
  refine ⟨.role role, ?_, rfl⟩
  rw [h.assemble_eq (.ownApi name), List.append_assoc, Entries.get?_append, hnone, Option.none_or,
    Entries.get?_append, hg, Option.some_or]

end Compile.Intact

namespace Stack

variable {input : StackInput} {result : Compile.Result} {stageName : Text}

theorem mem_keys_of_holds {resources : ResourceMap} {type id : Text}
    (h : resources.Holds type id) : id ∈ Entries.keys resources := by
  obtain ⟨entry, hg, -⟩ := h
  exact Entries.mem_keys_of_get? hg

/-- A place refers to nothing but the API and entries of the map. -/
theorem mem_keys_of_place {resources : ResourceMap} {value : Json}
    (hapi : resources.Holds "AWS::ApiGateway::RestApi" restApiLogicalId)
    (hp : resources.Place value) {id : Text} (hm : value.Mentions id) :
    id ∈ Entries.keys resources := by
  rcases hp with rfl | ⟨target, rfl, ht⟩
  · obtain rfl := Intrinsic.mentions_getAtt_iff.mp hm
    exact mem_keys_of_holds hapi
  · obtain rfl := Intrinsic.mentions_ref_iff.mp hm
    exact mem_keys_of_holds ht

/-- Every reference that is found in an entry names a key, or is supplied from outside. -/
theorem mem_keys_or_supplied (h : Compile.Intact Api.own (.ownApi input.apiName) result)
    {id : Text} (hr : Refers Api.own (.ownApi input.apiName) result id) :
    id ∈ Entries.keys (assemble Api.own (.str stageName) result) ∨ input.apiName.Mentions id ∨
      ∃ event ∈ result.events, event.Supplies id := by
  have hapi := h.holds_restApi (.str stageName)
  cases hr with
  | name hg hm =>
      have hname := List.mem_singleton.mp (Entries.mem_of_get? hg)
      simp only [Prod.mk.injEq, Resource.restApi.injEq, RestApi.mk.injEq] at hname
      exact Or.inr (Or.inl (hname.2 ▸ hm))
  | api hm =>
      obtain rfl := Intrinsic.mentions_ref_iff.mp hm
      exact Or.inl (mem_keys_of_holds hapi)
  | place he hf hm => exact Or.inl (mem_keys_of_place hapi (h.place_partsRef _ he hf) hm)
  | role hc hid =>
      obtain rfl := hid
      exact Or.inl (mem_keys_of_holds (h.holds_role _ hc))
  | event he hs => exact Or.inr (Or.inr ⟨_, he, hs⟩)

theorem closed_of_intact (h : Compile.Intact Api.own (.ownApi input.apiName) result) :
    Closed input ⟨Api.own, result, assemble Api.own (.str stageName) result, stageName⟩ where
  restApi := h.holds_restApi _
  path := by
    intro id entry hg ht
    have hmade := h.made_of_get?_assemble (.ownApi _) hg
    obtain ⟨hapi, event, he, front, hf, hparent⟩ := hmade.path_refs ht
    exact ⟨hapi, hparent ▸ h.place_partsRef _ he hf⟩
  method := by
    intro id entry hg ht
    have hmade := h.made_of_get?_assemble (.ownApi _) hg
    obtain ⟨hapi, ⟨compiled, hc, hplace⟩, hrole⟩ := hmade.method_refs ht
    have hp := h.place_partsRef (.str stageName) (List.mem_map_of_mem hc) List.prefix_rfl
    exact ⟨hapi, hplace ▸ hp, hrole, h.holds_role _ hc⟩
  deployment := by
    intro id entry hg ht
    have hmade := h.made_of_get?_assemble (.ownApi _) hg
    obtain ⟨hapi, hmethods⟩ := hmade.deployment_refs ht
    exact ⟨hapi, result.methodIds, hmethods, fun id hid => h.holds_method _ hid⟩
  every := fun _ _ hg _ hm =>
    mem_keys_or_supplied h ((h.made_of_get?_assemble (.ownApi _) hg).refers h hm)

/-! ## Built stacks -/

/-- What a stack starts from is nothing, or the REST API alone. -/
theorem bare_of_start {api : Api} {given : ResourceMap} (h : start input = .ok (api, given)) :
    Compile.Bare given := by
  unfold start at h
  split at h
  · split at h
    · split at h <;> simp_all [Compile.Bare.empty]
    · cases h
  · obtain ⟨-, rfl⟩ := Prod.mk.inj (Except.ok.inj h)
    exact .ownApi _

/-- What a stack is built from. -/
theorem build_ok_iff {stack : Stack} :
    (build input).outcome = .ok stack ↔
      ∃ api given result stageName, start input = .ok (api, given) ∧
        (Compile.compile api input.strict input.events given).outcome = .ok result ∧
        input.stageName = .str stageName ∧
        stack = ⟨api, result, assemble api (.str stageName) result, stageName⟩ := by
  cases hstart : start input with
  | error fault => simp [build, hstart]
  | ok started =>
      obtain ⟨api, given⟩ := started
      simp only [build, hstart, Compile.Run.outcome_bind]
      change (_ : Except Failure Compile.Result) >>= _ = .ok stack ↔ _
      rw [bind_eq_ok]
      cases hs : input.stageName with
      | str stageName =>
          constructor
          · rintro ⟨result, hc, hr⟩
            exact ⟨api, given, result, stageName, rfl, hc, rfl, (Except.ok.inj hr).symm⟩
          · rintro ⟨_, _, result, text, he, hc, ht, rfl⟩
            obtain ⟨rfl, rfl⟩ := Prod.mk.inj (Except.ok.inj he)
            obtain rfl := Json.str.inj ht
            exact ⟨result, hc, rfl⟩
      | null | bool b | int n | float x | arr items | obj fields => simp

/-- Without strictness and with a text for its stage a stack is built from any events. -/
theorem exists_build {api : Api} {given : ResourceMap} (hstart : start input = .ok (api, given))
    (hstrict : input.strict = false) (hstage : input.stageName = .str stageName) :
    ∃ stack, (build input).outcome = .ok stack := by
  have hc := Compile.compile_lenient api input.events given
  rw [← hstrict] at hc
  exact ⟨_, build_ok_iff.mpr ⟨api, given, _, stageName, hstart, hc, hstage, rfl⟩⟩

/-- What a stack with its own API is built from. -/
theorem build_eq_ok_iff (hown : input.existing.truthy = false) {stack : Stack} :
    (build input).outcome = .ok stack ↔
      ∃ result stageName, (Compile.compile Api.own input.strict input.events
          (.ownApi input.apiName)).outcome = .ok result ∧ input.stageName = .str stageName ∧
        stack = ⟨Api.own, result, assemble Api.own (.str stageName) result, stageName⟩ := by
  have hstart : start input = .ok (Api.own, .ownApi input.apiName) := by simp [start, hown]
  rw [build_ok_iff]
  constructor
  · rintro ⟨_, _, result, text, he, hc, ht, rfl⟩
    obtain ⟨rfl, rfl⟩ := Prod.mk.inj (Except.ok.inj (hstart.symm.trans he))
    exact ⟨result, text, hc, ht, rfl⟩
  · rintro ⟨result, text, hc, ht, rfl⟩
    exact ⟨_, _, result, text, hstart, hc, ht, rfl⟩

/-- With an API of its own and a text for its stage a stack is built from any events, unless it is
strict; and every stack that is built is closed under its references. -/
theorem build_closed {input : StackInput} (hown : input.existing.truthy = false) :
    (∀ stageName, input.strict = false → input.stageName = .str stageName →
      ∃ stack, (build input).outcome = .ok stack) ∧
    ∀ stack, (build input).outcome = .ok stack → Closed input stack := by
  constructor
  · intro stageName hstrict hstage
    have hc := Compile.compile_lenient Api.own input.events (.ownApi input.apiName)
    rw [← hstrict] at hc
    exact ⟨_, (build_eq_ok_iff hown).mpr ⟨_, stageName, hc, hstage, rfl⟩⟩
  · intro stack hb
    obtain ⟨result, stageName, hc, -, rfl⟩ := (build_eq_ok_iff hown).mp hb
    exact closed_of_intact (Compile.Intact.compile (objects_ownApi _) hc)

/-- The stack of five events, of which two are skipped. -/
def readAndWriteInput : StackInput where
  events := Compile.readAndWrite
  apiName := .str "users-api"

/-- Its map has the API, four path resources, three methods, the role and the deployment. -/
theorem build_closed_readAndWrite :
    readAndWriteInput.existing.truthy = false ∧
      ∃ stack, (build readAndWriteInput).outcome = .ok stack ∧
        stack.result.methodIds.length = 3 ∧ stack.resources.length = 10 ∧
        Closed readAndWriteInput stack := by
  have hc := Compile.compile_lenient Api.own Compile.readAndWrite (.ownApi (.str "users-api"))
  have hown : readAndWriteInput.existing.truthy = false := rfl
  have hb := (build_eq_ok_iff hown).mpr ⟨_, "dev", hc, rfl, rfl⟩
  refine ⟨hown, _, hb, ?_, ?_, (build_closed hown).2 _ hb⟩
  · decide +kernel
  · decide +kernel

end Stack

end TableGateway
