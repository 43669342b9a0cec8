import TableGateway.Json.Display
import TableGateway.Proofs.Json.Plain
import TableGateway.Proofs.Mapping.Filling
import TableGateway.Proofs.Mapping.Keys

/-! # Clauses of requests

What the clauses of a template become when its slots are filled: as long as the values need no
escapes, each clause is one field of the request. -/

namespace TableGateway

/-! ## Plain events -/

/-- Whether a value is text that stands in a JSON string as it is. -/
def Json.PlainText : Json → Prop
  | .str text => Plain text
  | _ => False

instance : DecidablePred Json.PlainText
  | .str text => inferInstanceAs (Decidable (Json.Plain text))
  | .null | .bool _ | .int _ | .float _ | .arr _ | .obj _ => inferInstanceAs (Decidable False)

theorem Json.PlainText.eq_str {value : Json} (h : value.PlainText) : value = .str value.display := by
  cases value with
  | str text => rfl
  | _ => exact h.elim

theorem Json.PlainText.plain {value : Json} (h : value.PlainText) : Plain value.display := by
  cases value with
  | str text => exact h
  | _ => exact h.elim

structure KeyAttribute.Plain (k : KeyAttribute) : Prop where
  key : k.key.PlainText
  attributeType : k.attributeType.PlainText
  attributeValue : k.attributeValue.PlainText

/-- Whether all values that fill the templates of an event are plain text. -/
structure Event.Plain (event : Event) : Prop where
  tableName : event.tableName.PlainText
  keys : ∀ role k, event.keyAttribute role = some k → k.Plain
  condition : event.condition ≠ .null → event.condition.PlainText

/-- The attribute of a key in a request: its name with its typed value. -/
def KeyAttribute.field (k : KeyAttribute) : Text × Json :=
  (k.key.display, .obj [(k.attributeType.display, k.attributeValue)])

/-- The name of a plain key shows the key itself. -/
theorem Event.Plain.key_eq {event : Event} (h : event.Plain) {role other : KeyRole}
    {k l : KeyAttribute} (hk : event.keyAttribute role = some k)
    (hl : event.keyAttribute other = some l) (hname : k.field.1 = l.field.1) : k.key = l.key := by
  rw [(h.keys _ _ hk).key.eq_str, (h.keys _ _ hl).key.eq_str]
  exact congrArg Json.str hname

namespace Mapping

open Json

/-! ## Slots of a template -/

theorem slots_intercalate {separator : List Segment} (h : slots separator = [])
    (parts : List (List Segment)) : slots (separator.intercalate parts) = parts.flatMap slots := by
  induction parts with
  | nil => rfl
  | cons part parts ih =>
      cases parts with
      | nil => simp
      | cons next parts =>
          rw [List.intercalate_cons_cons, slots_append, slots_append, h, ih]
          simp

theorem slots_keyClause (role : KeyRole) : slots (keyClause role) = slotNames role := rfl

theorem slots_conditionClause (event : Event) :
    slots (conditionClause event) = Entries.keys (conditionValue event) := by
  unfold conditionClause conditionValue
  split <;> rfl

/-- The slots of a template are the keys of its values, in the same order. -/
theorem slots_segments (event : Event) (action : Action) :
    slots (requestTemplateOf event action).segments =
      Entries.keys (requestTemplateOf event action).values := by
  have hkeys : Entries.keys (keyValues event) =
      (resolvedKeys event).flatMap fun key => slotNames key.1 := by
    rw [keys_keyValues, List.flatMap_map]
  have hobject : slots (keyObject event) = Entries.keys (keyValues event) := by
    rw [keyObject, slots_intercalate rfl, List.flatMap_map, hkeys]
    rfl
  have hitem : slots ((resolvedKeys event).flatMap fun key => keyClause key.1 ++ [.text ","]) =
      Entries.keys (keyValues event) := by
    rw [List.flatMap_def, slots_flatten, List.flatMap_map, hkeys]
    simp [slots_keyClause]
  have htable : slots tableClause = [Text.ofString "TableName"] := rfl
  cases action with
  | putItem => simp [requestTemplateOf, putItem, htable, hitem, slots_conditionClause]
  | getItem => simp [requestTemplateOf, getItem, htable, hobject]
  | deleteItem => simp [requestTemplateOf, deleteItem, htable, hobject, slots_conditionClause]

theorem closed_segments (event : Event) (action : Action) :
    ∀ segment ∈ (requestTemplateOf event action).segments, segment.Closed := by
  have hframe : ∀ segment ∈ frame, segment.Closed := by decide +kernel
  have hclause : ∀ role, ∀ segment ∈ keyClause role, segment.Closed := by
    intro role
    cases role <;> decide
  intro segment hs
  rcases List.mem_append.mp (segments_subset event action hs) with hm | hm
  · exact hframe segment hm
  · obtain ⟨key, -, hm⟩ := List.mem_flatMap.mp hm
    exact hclause key.1 segment hm

/-! ## Filled clauses -/

/-- The field of a key as it is written in a request. -/
def keyText (k : KeyAttribute) : Text :=
  inQuotes k.key.display ++ ": \x7b" ++ inQuotes k.attributeType.display ++ ": " ++
    inQuotes k.attributeValue.display ++ "\x7d"

/-- The start of a request, which names the table. -/
def tableText (event : Event) : Text :=
  "\x7b\"TableName\": " ++ inQuotes event.tableName.display ++ ","

/-- The field of a condition as it is written in a request, behind a comma. -/
def conditionText (condition : Json) : Text :=
  if condition = .null then [] else ",\"ConditionExpression\": " ++ inQuotes condition.display

/-- A request of the table, one more field, maybe with a gap behind it, and the condition. -/
def requestText (event : Event) (field after : Text) (condition : Json) : Text :=
  tableText event ++ field ++ after ++ conditionText condition ++ "\x7d"

def conditionFields (condition : Json) : List (Text × Json) :=
  if condition = .null then [] else [("ConditionExpression", condition)]

theorem spellsField_keyText {k : KeyAttribute} (h : k.Plain) :
    SpellsField (keyText k) k.field := by
  have hvalue := spells_obj SpellsFront.nil
    (spellsField_str h.attributeType.plain h.attributeValue.plain) gap_nil
  have hblank : Gap [.char ' '] := by decide
  have hfield := SpellsField.mk h.key.plain gap_nil hblank hvalue
  rw [← h.attributeValue.eq_str] at hfield
  simpa [keyText, KeyAttribute.field, Text.ofString, Text.ofChars, Entries.merge_cons,
    Entries.put] using hfield

section Filled

variable {event : Event} (h : event.Plain) (action : Action)
include h

theorem fillAll?_tableClause :
    fillAll? (requestTemplateOf event action).values tableClause = some (tableText event) := by
  have htable : Entries.get? (requestTemplateOf event action).values "TableName" =
      some (.str event.tableName.display) := by
    rw [← h.tableName.eq_str]
    cases action <;> rfl
  simp only [tableClause, fillAll?_text_cons, fillAll?_slot_cons htable, fillAll?_nil,
    Option.map_some]
  simp [tableText, inQuotes, Text.ofString, Text.ofChars]

theorem fillAll?_keyClause {key : KeyRole × KeyAttribute} (hm : key ∈ resolvedKeys event) :
    fillAll? (requestTemplateOf event action).values (keyClause key.1) = some (keyText key.2) := by
  have hk := mem_resolvedKeys.mp hm
  obtain ⟨hkey, htype, hvalue⟩ := h.keys _ _ hk
  have hvalues := (carries action hk).values
  rw [KeyAttribute.values, hkey.eq_str, htype.eq_str, hvalue.eq_str] at hvalues
  simp only [List.forall_mem_cons] at hvalues
  obtain ⟨hkey, htype, hvalue, -⟩ := hvalues
  simp only [keyClause, fillAll?_text_cons, fillAll?_slot_cons hkey, fillAll?_slot_cons htype,
    fillAll?_slot_cons hvalue, fillAll?_nil, Option.map_some]
  simp [keyText, inQuotes, Text.ofString, Text.ofChars]

theorem fillAll?_conditionClause (hput : action ≠ .getItem) :
    fillAll? (requestTemplateOf event action).values (conditionClause event) =
      some (conditionText event.condition) := by
  unfold conditionClause conditionText
  by_cases hc : event.condition = .null
  · simp [hc]
  · have hentry : (Text.ofString "ConditionExpression", event.condition) ∈
        (requestTemplateOf event action).values := by
      cases action with
      | getItem => exact absurd rfl hput
      | putItem | deleteItem =>
          simp [requestTemplateOf, putItem, deleteItem, conditionValue, hc]
    have hvalue := Entries.get?_of_mem (nodup_keys_values event action) hentry
    rw [(h.condition hc).eq_str] at hvalue
    simp only [hc, if_false, fillAll?_text_cons, fillAll?_slot_cons hvalue, fillAll?_nil,
      Option.map_some]
    simp [inQuotes, Text.ofString, Text.ofChars]

end Filled

theorem spellsField_tableName {event : Event} (h : event.Plain) :
    SpellsField (inQuotes "TableName" ++ .char ':' :: .char ' ' ::
      inQuotes event.tableName.display) ("TableName", event.tableName) := by
  have hlabel : Plain "TableName" := by decide
  have hfield := spellsField_str hlabel h.tableName.plain
  rwa [← h.tableName.eq_str] at hfield

/-- A request is an object of the table, one more field and the condition, if there is one. -/
theorem spells_request {event : Event} (h : event.Plain) {condition : Json}
    (hc : condition ≠ .null → condition.PlainText) {text after name : Text} {value : Json}
    (hfield : SpellsField text (name, value)) (ha : Gap after) (htable : name ≠ "TableName")
    (hcondition : name ≠ "ConditionExpression") :
    Spells (requestText event text after condition)
      (.obj (("TableName", event.tableName) :: (name, value) :: conditionFields condition)) := by
  have hfirst := spellsField_tableName h
  have hfront := SpellsFront.cons hfirst gap_nil .nil
  by_cases hnull : condition = .null
  · have hobject := spells_obj hfront hfield ha
    rw [Entries.merge_eq_append (by simp [htable.symm]) (by simp)] at hobject
    simpa [requestText, tableText, conditionText, conditionFields, hnull, inQuotes,
      Text.ofString, Text.ofChars] using hobject
  · have hlabel : Plain "ConditionExpression" := by decide
    have hlast := spellsField_str hlabel (hc hnull).plain
    rw [← (hc hnull).eq_str] at hlast
    have hobject := spells_obj (hfront.append (SpellsFront.cons hfield ha .nil)) hlast gap_nil
    have hne : Text.ofString "TableName" ≠ Text.ofString "ConditionExpression" :=
      Text.ofString_ne (by decide)
    rw [Entries.merge_eq_append (by simp [htable.symm, hcondition, hne]) (by simp)] at hobject
    simpa [requestText, tableText, conditionText, conditionFields, hnull, inQuotes,
      Text.ofString, Text.ofChars] using hobject

end Mapping

end TableGateway
