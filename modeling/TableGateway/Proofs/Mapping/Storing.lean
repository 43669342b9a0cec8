import TableGateway.Proofs.Mapping.BodyLoop
import TableGateway.Proofs.Mapping.Clauses
import TableGateway.Proofs.Mapping.Rendering

/-! # Requests that store an item

The template that stores an item ends each key with a comma and leaves it to the request body to go
on. The request is read as the keys and the attributes of the body, unless a key resolves and the
body has no attributes: then the last comma is in front of the closing brace, and the request is no
JSON. -/

namespace TableGateway.Mapping

open Json

/-! ## The rendered request -/

/-- The keys of an item, each with a comma behind it. -/
def keysFront (event : Event) : Text :=
  (resolvedKeys event).flatMap fun key => keyText key.2 ++ [CodePoint.char ',']

/-- The field of the item as it is rendered. -/
def itemText (event : Event) (attributes : List Attribute) : Text :=
  "\"Item\": \x7b" ++ keysFront event ++ "\n      \n      " ++ Attribute.printedAll attributes ++
    "\n    \x7d"

/-- The segments in front of the loop. -/
def itemFront (event : Event) : List Segment :=
  tableClause ++ [.text "\"Item\": \x7b"] ++
    (resolvedKeys event).flatMap fun key => keyClause key.1 ++ [.text ","]

theorem quiet_itemFront (event : Event) : ∀ segment ∈ itemFront event, segment.Quiet := by
  have hfixed : ∀ segment ∈ tableClause ++ [.text "\"Item\": \x7b"], segment.Quiet := by decide
  have hclause : ∀ role, ∀ segment ∈ keyClause role ++ [.text ","], segment.Quiet := by
    intro role
    cases role <;> decide
  refine List.forall_mem_append.mpr ⟨hfixed, ?_⟩
  intro segment hs
  obtain ⟨key, -, hs⟩ := List.mem_flatMap.mp hs
  exact hclause key.1 segment hs

/-- Behind the loop there is a text without marks and, if there is a condition, a slot. -/
theorem conditionClause_concat (event : Event) :
    ∃ tail back, conditionClause event ++ [.text "\x7d"] = .text tail :: back ∧
      tail ∈ [Text.ofString "\x7d", Text.ofString ",\"ConditionExpression\": \""] ∧
      (∀ segment ∈ Segment.text tail :: back, segment.Quiet) ∧
      ∀ segment ∈ back.head?, segment.slot? ≠ none := by
  unfold conditionClause
  split
  · exact ⟨_, _, rfl, by decide, by decide, by decide⟩
  · exact ⟨_, _, rfl, by decide, by decide, by decide⟩

section Plain

variable {event : Event} (h : event.Plain)
include h

theorem fillAll?_itemFront : fillAll? (putItem event).values (itemFront event) =
    some (tableText event ++ "\"Item\": \x7b" ++ keysFront event) := by
  have hopen := fillAll?_append (fillAll?_tableClause h .putItem)
    (fillAll?_text "\"Item\": \x7b")
  refine fillAll?_append hopen (fillAll?_flatMap fun key hm => ?_)
  exact fillAll?_append (fillAll?_keyClause h .putItem hm) (fillAll?_text ",")

theorem render?_putItem {raw : Text} {attributes : List Attribute}
    (hraw : Json.read raw = .ok (.obj (attributes.map Attribute.field)))
    (hn : (attributes.map Attribute.name).Nodup) :
    render? (putItem event).values (putItem event).text raw =
      some (requestText event (itemText event attributes) "\n    " event.condition) := by
  obtain ⟨tail, back, hcut, htail, hback, hslot⟩ := conditionClause_concat event
  have hsegments : (putItem event).segments =
      itemFront event ++ .text bodyLoop :: .text tail :: back := by
    rw [← hcut]
    simp [putItem, itemFront]
  have hclosed := closed_segments event .putItem
  rw [requestTemplateOf, hsegments] at hclosed
  have hbehind : fillAll? (putItem event).values (.text tail :: back) =
      some (conditionText event.condition ++ "\x7d") := by
    rw [← hcut]
    exact fillAll?_append (fillAll?_conditionClause h .putItem (by decide)) (fillAll?_text _)
  rw [Template.text, hsegments, render?_of_program hclosed (quiet_itemFront event) hback hslot
    (lex_bodyLoop_append tail htail) (fillAll?_itemFront h) hbehind, run_copyBody hraw hn]
  simp [requestText, itemText, Text.ofString, Text.ofChars]

/-! ## The rendered request as JSON -/

theorem spellsFront_keysFront :
    SpellsFront (keysFront event) ((resolvedKeys event).map fun key => key.2.field) :=
  spellsFront_flatMap fun _ hm =>
    (spellsField_keyText (h.keys _ _ (mem_resolvedKeys.mp hm))).front

end Plain

namespace Attribute

structure Plain (a : Attribute) : Prop where
  name : Json.Plain a.name
  type : Json.Plain a.type
  value : Json.Plain a.value

variable {a : Attribute} {attributes : List Attribute}

theorem Plain.spellsField (h : a.Plain) : SpellsField a.text a.field := by
  have hblank : Gap [.char ' '] := by decide
  have htag := SpellsField.mk h.type hblank hblank (spells_str h.value)
  have htyped := spells_obj SpellsFront.nil htag gap_nil
  have hfield := SpellsField.mk h.name gap_nil gap_nil htyped
  simpa [text, field, typed, inQuotes, Text.ofString, Text.ofChars, Entries.merge_cons,
    Entries.put] using hfield

theorem spellsFront_printed (h : a.Plain) : SpellsFront (a.printed true) [a.field] := by
  have hblanks : Gap "\n        \n        \n          " := by decide
  have hbehind : Gap "\n        \n        \n      " := by decide
  have hnext : Gap "\n      " := by decide
  have hfront := SpellsFront.gap hblanks (.cons h.spellsField hbehind (spellsFront_gap hnext))
  simpa [printed, Text.ofString, Text.ofChars] using hfront

theorem printedAll_concat (front : List Attribute) (last : Attribute) :
    printedAll (front ++ [last]) = front.flatMap (printed · true) ++ last.printed false := by
  induction front with
  | nil => simp [printedAll]
  | cons a front ih =>
      have hmore : (front ++ [last]).isEmpty = false := by cases front <;> rfl
      rw [List.cons_append, printedAll, hmore, ih, List.flatMap_cons, List.append_assoc]
      rfl

end Attribute

/-- The fields of an item: the keys, then the attributes of the body. -/
def itemFields (event : Event) (attributes : List Attribute) : List (Text × Json) :=
  ((resolvedKeys event).map fun key => key.2.field) ++ attributes.map Attribute.field

section Item

variable {event : Event} (h : event.Plain) {attributes : List Attribute}
include h

/-- The item is read when an attribute follows the keys, or when there are none of either. -/
theorem spellsField_itemText (hplain : ∀ a ∈ attributes, a.Plain)
    (hnext : attributes ≠ [] ∨ resolvedKeys event = []) :
    SpellsField (itemText event attributes)
      ("Item", .obj (Entries.merge [] (itemFields event attributes))) := by
  have hkeys := spellsFront_keysFront h
  have hvalue : Spells ("\x7b" ++ keysFront event ++ "\n      \n      " ++
      Attribute.printedAll attributes ++ "\n    \x7d")
        (.obj (Entries.merge [] (itemFields event attributes))) := by
    rcases attributes.eq_nil_or_concat' with rfl | ⟨front, last, rfl⟩
    · have hnone := hnext.resolve_left fun hne => hne rfl
      have hblanks : Gap "\n      \n      \n    " := by decide
      have hempty := spells_obj_nil hblanks
      simpa [keysFront, itemFields, hnone, Attribute.printedAll, Text.ofString, Text.ofChars]
        using hempty
    · obtain ⟨hfront, hlast⟩ := List.forall_mem_append.mp hplain
      have hblanks : Gap "\n      \n      " := by decide
      have hlead : Gap "\n        \n        \n          " := by decide
      have hbehind : Gap "\n        \n        \n      \n      \n    " := by decide
      have hprinted := spellsFront_flatMap fun a ha => Attribute.spellsFront_printed (hfront a ha)
      have hobject := spells_obj
        (hkeys.append (.gap hblanks (hprinted.append (spellsFront_gap hlead))))
        (hlast last (List.mem_singleton.mpr rfl)).spellsField hbehind
      simpa [Attribute.printedAll_concat, Attribute.printed, itemFields, Text.ofString,
        Text.ofChars] using hobject
  have hlabel : Plain "Item" := by decide
  have hblank : Gap [.char ' '] := by decide
  have hfield := SpellsField.mk hlabel gap_nil hblank hvalue
  simpa [itemText, inQuotes, Text.ofString, Text.ofChars] using hfield

/-- With keys and without attributes the item ends with a comma, which is no JSON. -/
theorem read_trailing (hkeys : resolvedKeys event ≠ []) :
    Json.read (requestText event (itemText event []) "\n    " event.condition) =
      .error .malformed := by
  have hlabel : Plain "Item" := by decide
  have hblank : Gap [.char ' '] := by decide
  have hblanks : Gap "\n      \n      \n    " := by decide
  have hitem := refused_of_trailing
    ((spellsFront_keysFront h).append (spellsFront_gap hblanks)) (by simpa using hkeys)
    ("\n    " ++ conditionText event.condition ++ "\x7d")
  have hrequest := refused_of_field (SpellsFront.cons (spellsField_tableName h) gap_nil .nil)
    hlabel gap_nil hblank hitem
  refine Refused.read ?_
  simpa [requestText, itemText, tableText, Attribute.printedAll, inQuotes, Text.ofString,
    Text.ofChars] using hrequest

end Item

/-! ## What is stored -/

/-- The body of a request: distinct attributes that need no escapes. -/
structure RequestBody where
  attributes : List Attribute
  plain : ∀ a ∈ attributes, a.Plain
  distinct : (attributes.map Attribute.name).Nodup

def RequestBody.json (body : RequestBody) : Json := .obj (body.attributes.map Attribute.field)

/-- Whether no attribute of a body has the name of a key. -/
def RequestBody.Apart (body : RequestBody) (event : Event) : Prop :=
  ∀ a ∈ body.attributes, ∀ role k, event.keyAttribute role = some k → k.key ≠ .str a.name

/-- Whether keys of one name are one attribute. -/
def KeysAgree (event : Event) : Prop :=
  ∀ hash range, event.keyAttribute .hash = some hash → event.keyAttribute .range = some range →
    hash.key = range.key → hash.field = range.field

/-- Whether a text is a request that stores the keys of an event and the attributes of a body, on
the condition of the event if there is one. -/
def Stores (event : Event) (body : RequestBody) (text : Text) : Prop :=
  ∃ item, Json.read text = .ok (.obj (("TableName", event.tableName) :: ("Item", .obj item) ::
      conditionFields event.condition)) ∧
    ∀ name value, Entries.get? item name = some value ↔
      (name, value) ∈ itemFields event body.attributes

section Stored

variable {event : Event} {body : RequestBody}

theorem Stores.keysAgree {text : Text} (h : Stores event body text) : KeysAgree event := by
  obtain ⟨item, -, hitem⟩ := h
  have hfound : ∀ {role k}, event.keyAttribute role = some k →
      Entries.get? item k.key.display = some k.field.2 := by
    intro role k hk
    have hfield := List.mem_map_of_mem (f := fun key => key.2.field) (mem_resolvedKeys.mpr hk)
    exact (hitem _ _).mpr (List.mem_append_left _ hfield)
  intro hash range hh hr hkey
  have hvalue := hfound hh
  rw [hkey, hfound hr] at hvalue
  exact Prod.ext (congrArg Json.display hkey) (Option.some.inj hvalue).symm

/-- Fields of one name are one field, if keys of one name are one attribute. -/
theorem itemFields_unique (h : event.Plain) (ha : body.Apart event) (hagree : KeysAgree event) :
    ∀ field ∈ itemFields event body.attributes, ∀ other ∈ itemFields event body.attributes,
      field.1 = other.1 → field = other := by
  have happart : ∀ key ∈ resolvedKeys event, ∀ a ∈ body.attributes, key.2.field.1 ≠ a.name := by
    intro key hkey a hm hname
    have hk := mem_resolvedKeys.mp hkey
    refine ha a hm _ _ hk ?_
    rw [(h.keys _ _ hk).key.eq_str]
    exact congrArg Json.str hname
  -- Two keys, a key and an attribute, or two attributes.
  intro field hf other ho hname
  rcases List.mem_append.mp hf with hf | hf <;> rcases List.mem_append.mp ho with ho | ho
  · obtain ⟨⟨role, k⟩, hk, rfl⟩ := List.mem_map.mp hf
    obtain ⟨⟨second, l⟩, hl, rfl⟩ := List.mem_map.mp ho
    rw [mem_resolvedKeys] at hk hl
    have hkey := h.key_eq hk hl hname
    cases role <;> cases second
    · rw [Option.some.inj (hk.symm.trans hl)]
    · exact hagree k l hk hl hkey
    · exact (hagree l k hl hk hkey.symm).symm
    · rw [Option.some.inj (hk.symm.trans hl)]
  · obtain ⟨key, hkey, rfl⟩ := List.mem_map.mp hf
    obtain ⟨a, hm, rfl⟩ := List.mem_map.mp ho
    exact absurd hname (happart key hkey a hm)
  · obtain ⟨a, hm, rfl⟩ := List.mem_map.mp hf
    obtain ⟨key, hkey, rfl⟩ := List.mem_map.mp ho
    exact absurd hname.symm (happart key hkey a hm)
  · obtain ⟨a, hm, rfl⟩ := List.mem_map.mp hf
    obtain ⟨b, hb, rfl⟩ := List.mem_map.mp ho
    rw [List.inj_on_of_nodup_map body.distinct hm hb hname]

end Stored

/-- The request that stores an item is rendered for every body. It stores the keys and the
attributes of the body exactly when the body has an attribute or no key resolves, and keys of one
name are one attribute. -/
theorem putItem_stores_iff {event : Event} {body : RequestBody} {raw : Text}
    (haction : event.action = .known .putItem) (h : event.Plain)
    (hraw : Json.read raw = .ok body.json) (ha : body.Apart event) :
    ∃ template text, requestTemplate event = .ok template ∧
      render? template.values template.text raw = some text ∧
      (Stores event body text ↔
        (body.attributes ≠ [] ∨ resolvedKeys event = []) ∧ KeysAgree event) := by
  refine ⟨putItem event, requestText event (itemText event body.attributes) "\n    "
    event.condition, ?_, render?_putItem h hraw body.distinct, ?_, ?_⟩
  · rw [requestTemplate, haction]
    rfl
  · intro hs
    refine ⟨?_, hs.keysAgree⟩
    by_contra hdangling
    obtain ⟨hempty, hkeys⟩ := not_or.mp hdangling
    obtain ⟨item, hread, -⟩ := hs
    rw [not_not.mp hempty, read_trailing h hkeys] at hread
    cases hread
  · rintro ⟨hnext, hagree⟩
    have hblanks : Gap "\n    " := by decide
    have hrequest := spells_request h h.condition (spellsField_itemText h body.plain hnext)
      hblanks (Text.ofString_ne (by decide)) (Text.ofString_ne (by decide))
    exact ⟨_, hrequest.read, fun _ _ =>
      Entries.get?_merge_nil_iff (itemFields_unique h ha hagree)⟩

/-- Stores a member under the ID in the path, unless there is one. -/
def storeMember : Event where
  method := "put"
  path := "members/{id}"
  action := .known .putItem
  tableName := .str "Members"
  hashKey := some {
    attributeType := .str "S"
    pathParam := .str "id"
    queryStringParam := .null
    name := .null
    value := .null }
  condition := .str "attribute_not_exists(id)"

theorem plain_storeMember : storeMember.Plain := by
  refine ⟨by decide, ?_, by decide⟩
  rintro (_ | _) k hk
  · obtain rfl := Option.some.inj hk
    exact ⟨by decide, by decide, by decide⟩
  · cases hk

def memberBody : RequestBody where
  attributes := [⟨"name", "S", "Ann"⟩, ⟨"age", "N", "41"⟩]
  plain := by
    intro a ha
    simp only [List.mem_cons, List.not_mem_nil, or_false] at ha
    rcases ha with rfl | rfl <;> exact ⟨by decide, by decide, by decide⟩
  distinct := by decide

def memberText : Text :=
  "\x7b\"name\": \x7b\"S\": \"Ann\"\x7d, \"age\": \x7b\"N\": \"41\"\x7d\x7d"

theorem putItem_stores_iff_storeMember :
    storeMember.action = .known .putItem ∧ Json.read memberText = .ok memberBody.json ∧
    ∃ template text, requestTemplate storeMember = .ok template ∧
      render? template.values template.text memberText = some text ∧
      Stores storeMember memberBody text := by
  have haction : storeMember.action = .known .putItem := rfl
  have hread : Json.read memberText = .ok memberBody.json := by decide +kernel
  have happart : memberBody.Apart storeMember := by
    rintro a ha (_ | _) k hk
    · obtain rfl := Option.some.inj hk
      revert a
      decide
    · cases hk
  have hagree : KeysAgree storeMember := by
    intro hash range _ hr
    cases hr
  obtain ⟨template, text, htemplate, htext, hstores⟩ :=
    putItem_stores_iff haction plain_storeMember hread happart
  exact ⟨haction, hread, template, text, htemplate, htext,
    hstores.mpr ⟨Or.inl (List.cons_ne_nil _ _), hagree⟩⟩

def emptyBody : RequestBody where
  attributes := []
  plain := by simp
  distinct := List.nodup_nil

/-- The key of a member is followed by a comma that nothing follows. -/
theorem not_stores_emptyBody :
    requestTemplate storeMember = .ok (putItem storeMember) ∧ storeMember.Plain ∧
    Json.read "\x7b\x7d" = .ok emptyBody.json ∧ emptyBody.Apart storeMember ∧
    ∃ text, render? (putItem storeMember).values (putItem storeMember).text "\x7b\x7d" =
        some text ∧
      Json.read text = .error .malformed ∧ ¬ Stores storeMember emptyBody text := by
  have hread : Json.read "\x7b\x7d" = .ok emptyBody.json := by decide +kernel
  have hrefused := read_trailing plain_storeMember (List.cons_ne_nil _ _)
  refine ⟨rfl, plain_storeMember, hread, by simp [RequestBody.Apart, emptyBody], _,
    render?_putItem plain_storeMember hread emptyBody.distinct, hrefused, ?_⟩
  rintro ⟨item, hitem, -⟩
  cases hrefused.symm.trans hitem

end TableGateway.Mapping
