import TableGateway.Proofs.Mapping.Clauses

/-! # Requests for one item

The templates that read and remove an item become one JSON object each: the table, the keys that
resolve and, for a removal, the condition. -/

namespace TableGateway.Mapping

open Json

/-- The field of the keys as it is written in a request. -/
def keysText (event : Event) : Text :=
  "\"Key\":\x7b" ++
    [CodePoint.char ','].intercalate ((resolvedKeys event).map fun key => keyText key.2) ++ "\x7d"

/-- The condition that a request of an action has. -/
def askedCondition (event : Event) (action : Action) : Json :=
  if action = .deleteItem then event.condition else .null

/-- Whether the two keys have different names, if both resolve. -/
def KeysDiffer (event : Event) : Prop :=
  ∀ hash range, event.keyAttribute .hash = some hash → event.keyAttribute .range = some range →
    hash.key ≠ range.key

section Plain

variable {event : Event} (h : event.Plain)
include h

theorem fillAll?_keyObject (action : Action) :
    fillAll? (requestTemplateOf event action).values (keyObject event) =
      some ([CodePoint.char ','].intercalate ((resolvedKeys event).map fun key => keyText key.2)) :=
  fillAll?_intercalate (fillAll?_text _) fun _ hm => fillAll?_keyClause h action hm

theorem fillAll?_segments {action : Action} (hput : action ≠ .putItem) :
    fillAll? (requestTemplateOf event action).values (requestTemplateOf event action).segments =
      some (requestText event (keysText event) [] (askedCondition event action)) := by
  have hopen := fillAll?_append (fillAll?_tableClause h action) (fillAll?_text "\"Key\":\x7b")
  have hkeys := fillAll?_append hopen (fillAll?_keyObject h action)
  cases action with
  | putItem => exact absurd rfl hput
  | getItem =>
      have hall := fillAll?_append hkeys (fillAll?_text "\x7d\x7d")
      simpa [requestTemplateOf, getItem, requestText, keysText, conditionText, askedCondition,
        Text.ofString, Text.ofChars] using hall
  | deleteItem =>
      have hcondition := fillAll?_conditionClause h .deleteItem (by decide)
      have hclosed := fillAll?_append hkeys (fillAll?_text "\x7d")
      have hall := fillAll?_append (fillAll?_append hclosed hcondition) (fillAll?_text "\x7d")
      simpa [requestTemplateOf, deleteItem, requestText, keysText, askedCondition,
        Text.ofString, Text.ofChars] using hall

/-- Keys with different names are different fields. -/
theorem nodup_keys_fields (hnames : KeysDiffer event) :
    (Entries.keys ((resolvedKeys event).map fun key => key.2.field)).Nodup := by
  have hroles : ((resolvedKeys event).map Prod.fst).Nodup := by
    rw [map_fst_resolvedKeys]
    exact List.Nodup.filter _ (by decide)
  rw [Entries.keys, List.map_map]
  refine hroles.of_map.map_on ?_
  rintro ⟨role, k⟩ hk ⟨other, l⟩ hl hname
  rw [mem_resolvedKeys] at hk hl
  have hkey := h.key_eq hk hl hname
  cases role <;> cases other
  · rw [Option.some.inj (hk.symm.trans hl)]
  · exact absurd hkey (hnames k l hk hl)
  · exact absurd hkey.symm (hnames l k hl hk)
  · rw [Option.some.inj (hk.symm.trans hl)]

theorem spellsField_keysText (hnames : KeysDiffer event) :
    SpellsField (keysText event) ("Key", .obj ((resolvedKeys event).map fun key => key.2.field)) := by
  have hfields : ∀ key ∈ resolvedKeys event, SpellsField (keyText key.2) key.2.field :=
    fun key hm => spellsField_keyText (h.keys _ _ (mem_resolvedKeys.mp hm))
  have hobject := spells_intercalate hfields
  rw [Entries.merge_eq_append (nodup_keys_fields h hnames) (by simp)] at hobject
  have hlabel : Plain "Key" := by decide
  have hfield := SpellsField.mk hlabel gap_nil gap_nil hobject
  simpa [keysText, inQuotes, Text.ofString, Text.ofChars] using hfield

end Plain

/-- The template of an event that reads or removes an item stands for one request: its slots are the
keys of its values, and with the values put in it is read as the table, the keys that resolve and,
for a removal, the condition. -/
theorem requestTemplate_denotes {event : Event} {action : Action}
    (ha : event.action = .known action) (hput : action ≠ .putItem) (h : event.Plain)
    (hnames : KeysDiffer event) :
    ∃ template body, requestTemplate event = .ok template ∧
      placeholders template.text = Entries.keys template.values ∧
      fill? template.values template.text = some body ∧
      Json.read body = .ok (.obj (("TableName", event.tableName) ::
        ("Key", .obj ((resolvedKeys event).map fun key => key.2.field)) ::
        if action = .deleteItem then conditionFields event.condition else [])) := by
  have hclosed := closed_segments event action
  have hasked : askedCondition event action ≠ .null → (askedCondition event action).PlainText := by
    unfold askedCondition
    split
    · exact h.condition
    · exact absurd rfl
  have hrequest := spells_request h hasked (spellsField_keysText h hnames) gap_nil
    (Text.ofString_ne (by decide)) (Text.ofString_ne (by decide))
  have hconditions : conditionFields (askedCondition event action) =
      if action = .deleteItem then conditionFields event.condition else [] := by
    unfold askedCondition
    split <;> rfl
  refine ⟨requestTemplateOf event action,
    requestText event (keysText event) [] (askedCondition event action), ?_, ?_, ?_, ?_⟩
  · rw [requestTemplate, ha]
  · rw [Template.text, placeholders_written hclosed, slots_segments]
  · rw [Template.text, fill?_written _ hclosed, fillAll?_segments h hput]
  · rw [hrequest.read, hconditions]

/-- Removes an order of a member on a condition. The values hold a slot and a reference, which stay
as they are. -/
def removeOrder : Event where
  method := "delete"
  path := "orders"
  action := .known .deleteItem
  tableName := .str "Orders-$\x7bStage\x7d"
  hashKey := some {
    attributeType := .str "S"
    pathParam := .null
    queryStringParam := .str "member"
    name := .null
    value := .null }
  rangeKey := some {
    attributeType := .str "N"
    pathParam := .null
    queryStringParam := .null
    name := .str "order"
    value := .str "$\x7bTableName\x7d" }
  condition := .str "attribute_exists(member)"

theorem requestTemplate_denotes_removeOrder :
    removeOrder.action = .known .deleteItem ∧
    ∃ template body, requestTemplate removeOrder = .ok template ∧
      placeholders template.text = Entries.keys template.values ∧
      fill? template.values template.text = some body ∧
      Json.read body = .ok (.obj [("TableName", .str "Orders-$\x7bStage\x7d"),
        ("Key", .obj [("member", .obj [("S", .str "$input.params().querystring.member")]),
          ("order", .obj [("N", .str "$\x7bTableName\x7d")])]),
        ("ConditionExpression", .str "attribute_exists(member)")]) := by
  have hplain : removeOrder.Plain := by
    refine ⟨by decide, ?_, by decide⟩
    rintro (_ | _) k hk
    · obtain rfl := Option.some.inj hk
      exact ⟨by decide, by decide, by decide⟩
    · obtain rfl := Option.some.inj hk
      exact ⟨by decide, by decide, by decide⟩
  have hnames : KeysDiffer removeOrder := by
    intro hash range hh hr
    obtain rfl := Option.some.inj hh
    obtain rfl := Option.some.inj hr
    decide
  have haction : removeOrder.action = .known .deleteItem := rfl
  exact ⟨haction, requestTemplate_denotes haction (by decide) hplain hnames⟩

end TableGateway.Mapping
