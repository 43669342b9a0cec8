import TableGateway.Proofs.Stack

/-! # The union that a stack is

What was compiled, the role and the deployment have IDs of their own, whatever the paths and
methods of the events are, so that nothing is written over. The methods of the stack are those that
were compiled, and the deployment waits for each of them once. -/

namespace TableGateway

/-! ## Entries of a type -/

/-- The IDs of the entries of a type, in the order of the map. -/
def ResourceMap.idsOfType (resources : ResourceMap) (type : Text) : List Text :=
  Entries.keys (resources.filter fun entry => entry.2.type = .str type)

namespace ResourceMap

@[simp] theorem idsOfType_nil (type : Text) : idsOfType [] type = [] := rfl

@[simp] theorem idsOfType_append (base more : ResourceMap) (type : Text) :
    idsOfType (base ++ more) type = idsOfType base type ++ idsOfType more type := by
  unfold idsOfType
  rw [List.filter_append, Entries.keys_append]

theorem idsOfType_eq_nil {resources : ResourceMap} {type : Text}
    (h : ∀ entry ∈ resources, entry.2.type ≠ .str type) : idsOfType resources type = [] := by
  unfold idsOfType
  rw [List.filter_eq_nil_iff.mpr (by simpa using h)]
  rfl

end ResourceMap

/-! ## Methods in the order of the map -/

namespace Compile

/-- The map of a result lists its methods in their order, has no deployment, and no key twice. -/
structure Listed (result : Result) : Prop where
  methods : result.resources.idsOfType "AWS::ApiGateway::Method" = result.methodIds
  deployments : result.resources.idsOfType "AWS::ApiGateway::Deployment" = []
  distinct : (Entries.keys result.resources).Nodup

theorem Bare.listed {given : ResourceMap} (h : Bare given) : Listed { resources := given } := by
  cases h with
  | empty => exact ⟨rfl, rfl, List.nodup_nil⟩
  | ownApi name =>
      refine ⟨ResourceMap.idsOfType_eq_nil ?_, ResourceMap.idsOfType_eq_nil ?_,
        List.nodup_singleton _⟩
      all_goals
        intro entry hm
        obtain rfl := List.mem_singleton.mp hm
        exact fun he => absurd (Json.str.inj he) (by decide)

/-- Of the entries that an event brings only the last one is a method, and none is a deployment. -/
theorem idsOfType_brought (api : Api) (resources : ResourceMap) (event : Event)
    (method : MethodResource) :
    (brought api resources event method).idsOfType "AWS::ApiGateway::Method" =
        [event.methodLogicalId] ∧
      (brought api resources event method).idsOfType "AWS::ApiGateway::Deployment" = [] := by
  have hpaths : ∀ type : Text, type ≠ "AWS::ApiGateway::Resource" →
      (missing resources (Route.resources api event.path)).idsOfType type = [] := by
    intro type ht
    apply ResourceMap.idsOfType_eq_nil
    intro entry hm
    obtain ⟨-, resource, -, hv⟩ := mem_missing.mp hm
    rw [hv]
    exact fun he => ht (Json.str.inj he).symm
  rw [brought, ResourceMap.idsOfType_append, ResourceMap.idsOfType_append, hpaths _ (by decide),
    hpaths _ (by decide)]
  exact ⟨rfl, rfl⟩

theorem Listed.addEvent {api : Api} {given : ResourceMap} {result next : Result}
    (h : Listed result) (hi : Intact api given result) {strict : Bool} {index : Int}
    {event : Event} (hn : (Compile.addEvent api strict result index event).outcome = .ok next) :
    Listed next := by
  rcases addEvent_cases hn with ⟨method, ha, rfl⟩ | ⟨failure, -, rfl⟩
  · obtain ⟨hmethod, hdeployment⟩ := idsOfType_brought api result.resources event method
    have hmap := resources_withEvent index hi.objects ha
    refine ⟨?_, ?_, Entries.nodup_keys_merge _ h.distinct⟩
    · rw [hmap, ResourceMap.idsOfType_append, h.methods, hmethod, methodIds_withEvent]
    · rw [hmap, ResourceMap.idsOfType_append, h.deployments, hdeployment, List.append_nil]
  · exact ⟨h.methods, h.deployments, h.distinct⟩

theorem Listed.compile {api : Api} {strict : Bool} {events : List Event} {given : ResourceMap}
    {result : Result} (hgiven : Bare given)
    (h : (Compile.compile api strict events given).outcome = .ok result) : Listed result := by
  have hrun : Intact api given result ∧ Listed result :=
    addEvents_preserves (P := fun result => Intact api given result ∧ Listed result)
      (fun _ _ _ _ hp hn => ⟨hp.1.addEvent hn, hp.2.addEvent hp.1 hn⟩)
      ⟨Intact.start api hgiven.objects, hgiven.listed⟩ (addEvents_of_compile h)
  exact hrun.2

end Compile

/-! ## Built stacks -/

namespace Stack

/-- A stack is the union of what was compiled, the role and the deployment, which have no ID in
common; path resources, methods and the REST API can be told apart by their IDs; the methods are
those that were compiled, and there is a deployment of them unless there are none. -/
structure DisjointUnion (stack : Stack) : Prop where
  role : ∀ id ∈ Entries.keys (ResourceMap.ofRole stack.result.events),
    id ∉ Entries.keys stack.result.resources
  deployment : ∀ id ∈ Entries.keys (ResourceMap.ofDeployment stack.api (.str stack.stageName)
      stack.result.methodIds),
    id ∉ Entries.keys stack.result.resources ∧
      id ∉ Entries.keys (ResourceMap.ofRole stack.result.events)
  resources_eq : stack.resources =
    stack.result.resources ++ ResourceMap.ofRole stack.result.events ++
      ResourceMap.ofDeployment stack.api (.str stack.stageName) stack.result.methodIds
  distinct : (Entries.keys stack.resources).Nodup
  paths : ∀ path, ∀ id ∈ Entries.keys (Route.resources stack.api path),
    id ≠ restApiLogicalId ∧ ∀ resourceName method, id ≠ Route.methodLogicalId resourceName method
  methods : stack.resources.idsOfType "AWS::ApiGateway::Method" = stack.result.methodIds
  compiled : stack.result.methodIds = stack.result.events.map Event.methodLogicalId
  once : stack.result.methodIds.Nodup
  deployed : stack.resources.idsOfType "AWS::ApiGateway::Deployment" =
    if stack.result.methodIds = [] then [] else [deploymentLogicalId]
  waits : ∀ entry, Entries.get? stack.resources deploymentLogicalId = some entry →
    entry.toJson.field "DependsOn" = .arr (stack.result.methodIds.map .str)

/-- A role is neither a method nor a deployment. -/
theorem idsOfType_ofRole (events : List Event) {type : Text} (ht : type ≠ "AWS::IAM::Role") :
    (ResourceMap.ofRole events).idsOfType type = [] := by
  apply ResourceMap.idsOfType_eq_nil
  intro entry hm
  obtain ⟨role, -, rfl⟩ := ResourceMap.mem_ofRole_iff.mp hm
  exact fun he => ht (Json.str.inj he).symm

theorem idsOfType_ofDeployment (api : Api) (stageName : Json) (ids : List Text) :
    (ResourceMap.ofDeployment api stageName ids).idsOfType "AWS::ApiGateway::Method" = [] ∧
      (ResourceMap.ofDeployment api stageName ids).idsOfType "AWS::ApiGateway::Deployment" =
        if ids = [] then [] else [deploymentLogicalId] := by
  by_cases h : ids = []
  · simp [ResourceMap.ofDeployment, Deployment.ofMethods?, h]
  · have hone : ResourceMap.ofDeployment api stageName ids =
        [(deploymentLogicalId, .deployment ⟨api.restApiId, stageName, ids⟩)] := by
      simp [ResourceMap.ofDeployment, Deployment.ofMethods?, h]
    rw [hone, if_neg h]
    exact ⟨rfl, rfl⟩

section Built

variable {api : Api} {given : ResourceMap} {result : Compile.Result} {stageName : Text}

theorem waits_of_intact (hgiven : Compile.Bare given) (h : Compile.Intact api given result)
    {entry : Resource}
    (hg : Entries.get? (assemble api (.str stageName) result) deploymentLogicalId = some entry) :
    entry.toJson.field "DependsOn" = .arr (result.methodIds.map .str) := by
  have hcompiled : Entries.get? result.resources deploymentLogicalId = none :=
    Entries.get?_eq_none_iff.mpr (h.not_mem_keys hgiven (by decide))
  have hrole : Entries.get? (ResourceMap.ofRole result.events) deploymentLogicalId = none := by
    rw [Entries.get?_eq_none_iff]
    intro hm
    have hm := (ResourceMap.keys_ofRole_sublist result.events).subset hm
    exact absurd (List.mem_singleton.mp hm) (by decide)
  rw [h.assemble_eq hgiven, Entries.get?_append, Entries.get?_append, hcompiled, hrole,
    Option.or_self, Option.none_or] at hg
  obtain ⟨-, he⟩ := ResourceMap.mem_ofDeployment_iff.mp (Entries.mem_of_get? hg)
  obtain ⟨-, rfl⟩ := Prod.mk.inj he
  rfl

theorem union_of_intact (hgiven : Compile.Bare given) (h : Compile.Intact api given result)
    (hl : Compile.Listed result) :
    DisjointUnion ⟨api, result, assemble api (.str stageName) result, stageName⟩ where
  role := fun _ => h.not_mem_keys_of_role hgiven
  deployment := fun _ hid => h.not_mem_keys_of_deployment hgiven hid result.events
  resources_eq := h.assemble_eq hgiven _
  distinct := Entries.nodup_keys_merge _ (Entries.nodup_keys_merge _ hl.distinct)
  paths := by
    intro path id hid
    constructor
    · rintro rfl
      exact absurd (Route.idFamily_of_mem_keys hid) (by decide)
    · rintro resourceName method rfl
      exact Route.methodLogicalId_not_mem_keys api path resourceName method hid
  methods := by
    rw [h.assemble_eq hgiven, ResourceMap.idsOfType_append, ResourceMap.idsOfType_append,
      hl.methods, idsOfType_ofRole _ (by decide), (idsOfType_ofDeployment _ _ _).1,
      List.append_nil, List.append_nil]
  compiled := h.methodIds_eq
  once := h.distinct
  deployed := by
    rw [h.assemble_eq hgiven, ResourceMap.idsOfType_append, ResourceMap.idsOfType_append,
      hl.deployments, idsOfType_ofRole _ (by decide), (idsOfType_ofDeployment _ _ _).2]
    rfl
  waits := fun _ hg => waits_of_intact hgiven h hg

end Built

/-- With an API of its own or an imported one, and a text for its stage, a stack is built from any
events, unless it is strict; and every stack that is built is a union without overlaps. -/
theorem build_union (input : StackInput) :
    (∀ api given stageName, start input = .ok (api, given) → input.strict = false →
      input.stageName = .str stageName → ∃ stack, (build input).outcome = .ok stack) ∧
    ∀ stack, (build input).outcome = .ok stack → DisjointUnion stack := by
  constructor
  · exact fun api given stageName hstart hstrict hstage => exists_build hstart hstrict hstage
  · intro stack hb
    obtain ⟨api, given, result, stageName, hstart, hc, -, rfl⟩ := build_ok_iff.mp hb
    have hgiven := bare_of_start hstart
    exact union_of_intact hgiven (.compile hgiven.objects hc) (.compile hgiven hc)

/-- The stack of the same five events on an imported API. -/
def readAndWriteImported : StackInput :=
  { readAndWriteInput with
    existing := .obj [("rest_api_id", .str "a1b2c3"), ("root_resource_id", .str "d4e5f6")] }

/-- Its map has four path resources, three methods, the role and the deployment. -/
theorem build_union_readAndWriteImported :
    start readAndWriteImported =
        .ok (Api.ofIds (.str "a1b2c3") (.str "d4e5f6"), []) ∧
      ∃ stack, (build readAndWriteImported).outcome = .ok stack ∧
        stack.result.methodIds.length = 3 ∧ stack.resources.length = 9 ∧ DisjointUnion stack := by
  have hstart : start readAndWriteImported =
      .ok (Api.ofIds (.str "a1b2c3") (.str "d4e5f6"), []) := rfl
  have hc := Compile.compile_lenient (Api.ofIds (.str "a1b2c3") (.str "d4e5f6"))
    Compile.readAndWrite []
  have hb := build_ok_iff.mpr ⟨_, _, _, "dev", hstart, hc, rfl, rfl⟩
  refine ⟨hstart, _, hb, ?_, ?_, (build_union readAndWriteImported).2 _ hb⟩
  · decide +kernel
  · decide +kernel

end Stack

end TableGateway
