import Mathlib.Data.List.DropRight
import TableGateway.Proofs.Event.Accepted
import TableGateway.Proofs.Route.LogicalId

/-! # Decoding the ID of a method

The ID of a method has no mark between the name of the resource and the method, but the method is
the last capital and what is behind it. So the ID tells both of them, whatever the resource is
called. -/

namespace TableGateway.Route

/-! ## The last capital -/

/-- A text up to its last capital. -/
def uptoCapital (text : Text) : Text := text.rdropWhile fun c => !Text.isCapital c

theorem uptoCapital_append {capital : CodePoint} (h : Text.isCapital capital = true) (front : Text)
    {rest : Text} (hrest : ∀ c ∈ rest, Text.isCapital c = false) :
    uptoCapital (front ++ capital :: rest) = front ++ [capital] := by
  unfold uptoCapital
  induction rest using List.reverseRecOn with
  | nil => simp [h]
  | append_singleton rest last ih =>
      obtain ⟨hfront, hlast⟩ := List.forall_mem_append.mp hrest
      have hdrop : (!Text.isCapital last) = true := by simp [hlast last List.mem_cons_self]
      rw [← List.cons_append, ← List.append_assoc, List.rdropWhile_concat, if_pos hdrop,
        ih hfront]

/-! ## Reading an ID -/

/-- The name of the resource and the method that the ID of a method is made of: what is in front of
its last capital, and from there on the method. -/
def readMethodId (logicalId : Text) : Text × Text :=
  let named := logicalId.drop (Text.ofString "ApiGatewayMethod").length
  let resourceName := (uptoCapital named).dropLast
  (resourceName, Text.lower (named.drop resourceName.length))

theorem readMethodId_methodLogicalId (resourceName : Text) {method : Text}
    (h : SpellsMethod method) :
    readMethodId (methodLogicalId resourceName method) = (resourceName, Text.lower method) := by
  obtain ⟨capital, rest, hname, hcapital, hrest, hlower⟩ :=
    (lowerWord_of_mem_httpMethods h).exists_capital
  have hnamed : (methodLogicalId resourceName method).drop
      (Text.ofString "ApiGatewayMethod").length = resourceName ++ capital :: rest := by
    rw [methodLogicalId, methodName, hname, List.append_assoc, List.drop_left]
  have hread : (uptoCapital (resourceName ++ capital :: rest)).dropLast = resourceName := by
    rw [uptoCapital_append hcapital resourceName hrest, List.dropLast_concat]
  simp only [readMethodId, hnamed, hread, List.drop_left, hlower]

theorem methodLogicalId_eq_iff {resourceName otherName method other : Text}
    (h : SpellsMethod method) (ho : SpellsMethod other) :
    methodLogicalId resourceName method = methodLogicalId otherName other ↔
      resourceName = otherName ∧ Text.lower method = Text.lower other := by
  constructor
  · intro he
    have hread := congrArg readMethodId he
    rw [readMethodId_methodLogicalId _ h, readMethodId_methodLogicalId _ ho] at hread
    exact Prod.mk.inj hread
  · rintro ⟨rfl, hlower⟩
    rw [methodLogicalId, methodLogicalId, methodName, methodName, hlower]

/-! ## IDs of events -/

/-- Events that were read from configuration have methods in lower case. -/
theorem lower_method_of_ofConfig {data : Json} {event : Event}
    (h : Event.ofConfig data = .ok event) :
    SpellsMethod event.method ∧ Text.lower event.method = event.method := by
  have hm := Event.method_mem_of_ofConfig h
  exact ⟨spellsMethod_of_mem hm, (lowerWord_of_mem_httpMethods hm).lower_eq⟩

/-- The ID of a method can be read back into the name of its resource and the method, in any
spelling. So two IDs are equal only for equal names and one method, and two events from
configuration share an ID exactly when the names of their paths and their methods are equal. -/
theorem methodLogicalId_decodes :
    (∀ resourceName method, SpellsMethod method →
      readMethodId (methodLogicalId resourceName method) =
        (resourceName, Text.lower method)) ∧
    (∀ resourceName otherName method other, SpellsMethod method → SpellsMethod other →
      (methodLogicalId resourceName method = methodLogicalId otherName other ↔
        resourceName = otherName ∧ Text.lower method = Text.lower other)) ∧
    ∀ data otherData event other, Event.ofConfig data = .ok event →
      Event.ofConfig otherData = .ok other →
      (event.methodLogicalId = other.methodLogicalId ↔
        pathName event.path = pathName other.path ∧ event.method = other.method) := by
  refine ⟨fun resourceName _ h => readMethodId_methodLogicalId resourceName h,
    fun _ _ _ _ h ho => methodLogicalId_eq_iff h ho, ?_⟩
  intro data otherData event other h ho
  obtain ⟨hspells, hlower⟩ := lower_method_of_ofConfig h
  obtain ⟨hspells', hlower'⟩ := lower_method_of_ofConfig ho
  rw [Event.methodLogicalId, Event.methodLogicalId, methodLogicalId_eq_iff hspells hspells',
    hlower, hlower']

/-- An entry that stores users under a path by a method. -/
def storeEntry (path method : Text) : Json :=
  .obj [("path", .str path), ("method", .str method), ("action", .str "PutItem"),
    ("tableName", .str "Users")]

/-- The event of such an entry. -/
def storeEvent (path method : Text) : Event where
  method := method
  path := path
  action := .known .putItem
  tableName := .str "Users"

/-- A resource whose name ends with that of a method: two spellings of its path, and of the method,
make one ID, which is not that of the resource above it. -/
theorem methodLogicalId_decodes_usersGet :
    SpellsMethod "PUT" ∧ SpellsMethod "Get" ∧
      readMethodId "ApiGatewayMethodUsersGetPut" = (Text.ofString "UsersGet", Text.ofString "put") ∧
      methodLogicalId "UsersGet" "PUT" ≠ methodLogicalId "Users" "Get" ∧
      Event.ofConfig (storeEntry "/users//get/" "PUT") = .ok (storeEvent "users//get" "put") ∧
      Event.ofConfig (storeEntry "users/Get" "put") = .ok (storeEvent "users/Get" "put") ∧
      (storeEvent "users//get" "put").methodLogicalId =
        (storeEvent "users/Get" "put").methodLogicalId := by
  have hput : SpellsMethod "PUT" := by decide +kernel
  have hget : SpellsMethod "Get" := by decide +kernel
  have hloud : Event.ofConfig (storeEntry "/users//get/" "PUT") =
      .ok (storeEvent "users//get" "put") := by
    decide +kernel
  have hquiet : Event.ofConfig (storeEntry "users/Get" "put") =
      .ok (storeEvent "users/Get" "put") := by
    decide +kernel
  obtain ⟨hread, hids, hevents⟩ := methodLogicalId_decodes
  refine ⟨hput, hget, ?_, ?_, hloud, hquiet, ?_⟩
  · exact (hread "UsersGet" "PUT" hput).trans (by decide +kernel)
  · rw [Ne, hids _ _ _ _ hput hget]
    decide +kernel
  · rw [hevents _ _ _ _ hloud hquiet]
    decide +kernel

end TableGateway.Route
