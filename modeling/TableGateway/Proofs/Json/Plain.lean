import Mathlib.Data.List.TakeWhile
import TableGateway.Json.Reader
import TableGateway.Proofs.Entries

/-! # Reading plain JSON

How the reader goes through strings without escapes and through objects of them: white space between
tokens makes no difference, fields are entered in their order, and a comma behind the last field is
an error. -/

namespace TableGateway.Json

/-! ## White space -/

/-- Whether a text is white space between tokens. -/
def Gap (text : Text) : Prop := ∀ c ∈ text, c.isIn isGap = true

instance (text : Text) : Decidable (Gap text) :=
  inferInstanceAs (Decidable (∀ c ∈ text, c.isIn isGap = true))

theorem gap_nil : Gap [] := by simp [Gap]

theorem skipGap_append {gap : Text} (h : Gap gap) (rest : Text) :
    skipGap (gap ++ rest) = skipGap rest :=
  List.dropWhile_append_of_pos h

theorem skipGap_cons {c : CodePoint} (h : c.isIn isGap = false) (rest : Text) :
    skipGap (c :: rest) = c :: rest := by
  simp [skipGap, h]

theorem skipGap_gap {gap : Text} (h : Gap gap) (c : CodePoint) (rest : Text)
    (hc : c.isIn isGap = false) : skipGap (gap ++ c :: rest) = c :: rest := by
  rw [skipGap_append h, skipGap_cons hc]

/-! ## Strings -/

/-- Whether a text stands in a JSON string as it is: without quotes, backslashes and control
characters. -/
def Plain (text : Text) : Prop := ∀ c ∈ text, c ≠ .char '"' ∧ c ≠ .char '\\' ∧ 32 ≤ c.toNat

instance (text : Text) : Decidable (Plain text) :=
  inferInstanceAs (Decidable (∀ c ∈ text, c ≠ .char '"' ∧ c ≠ .char '\\' ∧ 32 ≤ c.toNat))

def inQuotes (text : Text) : Text := .char '"' :: (text ++ [.char '"'])

/-- Whether a code point is read from a spelling inside of a string. -/
structure SpellsPoint (spelling : Text) (p : CodePoint) : Prop where
  start : ∃ c tail, spelling = c :: tail ∧ c ≠ .char '"'
  reads : ∀ rest, readPoint (spelling ++ rest) = some (p, rest)

/-- A text is read from the spellings of its code points, up to the quote behind them. -/
theorem readText_spelled {spell : CodePoint → Text} {text : Text}
    (h : ∀ p ∈ text, SpellsPoint (spell p) p) (rest : Text) {fuel : Nat}
    (hf : (text.flatMap spell).length < fuel) (done : Text) :
    readText fuel done (text.flatMap spell ++ .char '"' :: rest) =
      .ok (done.reverse ++ text, rest) := by
  induction text generalizing fuel done with
  | nil =>
      cases fuel with
      | zero => exact absurd hf (Nat.not_lt_zero _)
      | succ fuel => simp [readText]
  | cons p text ih =>
      cases fuel with
      | zero => exact absurd hf (Nat.not_lt_zero _)
      | succ fuel =>
          obtain ⟨hp, htext⟩ := List.forall_mem_cons.mp h
          obtain ⟨c, tail, hstart, hquote⟩ := hp.start
          rw [List.flatMap_cons, List.length_append, hstart, List.length_cons] at hf
          have hpoint := hp.reads (text.flatMap spell ++ .char '"' :: rest)
          have hrest := ih htext (show (text.flatMap spell).length < fuel by omega) (p :: done)
          rw [List.flatMap_cons, List.append_assoc, readText]
          · simp only [hpoint, hrest, List.reverse_cons, List.append_assoc, List.singleton_append]
          · intro more he
            rw [hstart, List.cons_append] at he
            exact hquote (List.cons.inj he).1

theorem readString_spelled {spell : CodePoint → Text} {text : Text}
    (h : ∀ p ∈ text, SpellsPoint (spell p) p) (rest : Text) :
    readString (text.flatMap spell ++ .char '"' :: rest) = .ok (text, rest) := by
  apply readText_spelled h
  simp only [List.length_append, List.length_cons]
  omega

theorem readString_plain {text : Text} (h : Plain text) (rest : Text) :
    readString (text ++ .char '"' :: rest) = .ok (text, rest) := by
  have hspells : ∀ p ∈ text, SpellsPoint [p] p := by
    intro p hp
    obtain ⟨hquote, hslash, hsize⟩ := h p hp
    refine ⟨⟨p, [], rfl, hquote⟩, ?_⟩
    intro more
    simp [readPoint, hslash, Nat.not_lt.mpr hsize]
  simpa using readString_spelled hspells rest

/-! ## Values -/

/-- Whether a text is read as a value wherever it stands. As the text bounds how deep the value is
nested, so does its length. -/
structure Spells (text : Text) (value : Json) : Prop where
  start : ∃ c tail, text = c :: tail ∧ c.isIn isGap = false
  reads : ∀ fuel room rest, text.length ≤ fuel → text.length ≤ room →
    readValue fuel room (text ++ rest) = .ok (value, rest)

theorem Spells.skipGap_append {text gap : Text} {value : Json} (h : Spells text value)
    (hg : Gap gap) (rest : Text) : skipGap (gap ++ (text ++ rest)) = text ++ rest := by
  obtain ⟨c, tail, rfl, hc⟩ := h.start
  exact skipGap_gap hg c (tail ++ rest) hc

theorem spells_str {text : Text} (h : Plain text) : Spells (inQuotes text) (.str text) := by
  refine ⟨⟨.char '"', text ++ [.char '"'], rfl, by decide⟩, ?_⟩
  intro fuel room rest hf _
  cases fuel with
  | zero => simp [inQuotes] at hf
  | succ fuel =>
      have hstring := readString_plain h rest
      simp [inQuotes, readValue, readScalar, hstring, bind, Except.bind]

/-- A text that spells a value and nothing else is read as that value. -/
theorem Spells.read {text : Text} {value : Json} (h : Spells text value) :
    read text = .ok value := by
  have hvalue := h.reads (text.length + 1) text.length [] (Nat.le_succ _) le_rfl
  have hskip := h.skipGap_append gap_nil []
  simp only [List.nil_append, List.append_nil] at hvalue hskip
  unfold Json.read readWithin
  rw [hskip, hvalue]
  rfl

/-! ## Fields -/

/-- Whether a text spells a field: its key in quotes, a colon and its value. -/
inductive SpellsField : Text → Text × Json → Prop
  | mk {key before after text : Text} {value : Json} (hk : Plain key) (hb : Gap before)
      (ha : Gap after) (hv : Spells text value) :
      SpellsField (inQuotes key ++ before ++ .char ':' :: (after ++ text)) (key, value)

theorem SpellsField.start {text : Text} {field : Text × Json} (h : SpellsField text field) :
    ∃ tail, text = .char '"' :: tail := by
  obtain ⟨-, -, -, -⟩ := h
  exact ⟨_, rfl⟩

theorem SpellsField.skipGap_append {text gap : Text} {field : Text × Json}
    (h : SpellsField text field) (hg : Gap gap) (rest : Text) :
    skipGap (gap ++ (text ++ rest)) = text ++ rest := by
  obtain ⟨tail, rfl⟩ := h.start
  exact skipGap_gap hg (.char '"') (tail ++ rest) (by decide)

/-- A field is read up to the comma or the brace behind it. -/
theorem readFields_of_spells {text gap : Text} {field : Text × Json} (h : SpellsField text field)
    (hg : Gap gap) {fuel room : Nat} (hf : text.length ≤ fuel + 1) (hr : text.length ≤ room)
    (done : List (Text × Json)) (rest : Text) :
    readFields (fuel + 1) room done (text ++ (gap ++ .char ',' :: rest)) =
        readFields fuel room (Entries.put field.1 field.2 done) (skipGap rest) ∧
      readFields (fuel + 1) room done (text ++ (gap ++ .char '}' :: rest)) =
        .ok (.obj (Entries.put field.1 field.2 done), rest) := by
  obtain ⟨hk, hb, ha, hv⟩ := h
  rename_i key before after text value
  have hlength : text.length ≤ fuel ∧ text.length ≤ room := by
    simp only [inQuotes, List.length_append, List.length_cons, List.length_nil] at hf hr
    omega
  have htext : ∀ rest, inQuotes key ++ before ++ .char ':' :: (after ++ text) ++ rest =
      .char '"' :: (key ++ .char '"' :: (before ++ .char ':' :: (after ++ (text ++ rest)))) := by
    intro rest
    simp [inQuotes]
  have hcolon : ∀ rest, skipGap (before ++ .char ':' :: rest) = .char ':' :: rest :=
    fun rest => skipGap_gap hb (.char ':') rest (by decide)
  have hvalue : ∀ rest, readValue fuel room (text ++ rest) = .ok (value, rest) :=
    fun rest => hv.reads fuel room rest hlength.1 hlength.2
  have hcomma := skipGap_gap hg (.char ',') rest (by decide)
  have hclose := skipGap_gap hg (.char '}') rest (by decide)
  constructor
  · rw [htext, readFields]
    simp only [readString_plain hk, hcolon, hv.skipGap_append ha, hvalue, hcomma]
  · rw [htext, readFields]
    simp only [readString_plain hk, hcolon, hv.skipGap_append ha, hvalue, hclose]

theorem spellsField_str {key value : Text} (hk : Plain key) (hv : Plain value) :
    SpellsField (inQuotes key ++ .char ':' :: .char ' ' :: inQuotes value) (key, .str value) := by
  have hblank : Gap [.char ' '] := by decide
  have h := SpellsField.mk hk gap_nil hblank (spells_str hv)
  simpa using h

/-- Whether a text spells fields with a comma behind each of them. -/
inductive SpellsFront : Text → List (Text × Json) → Prop
  | nil : SpellsFront [] []
  | gap {gap front : Text} {fields : List (Text × Json)} (hg : Gap gap)
      (hf : SpellsFront front fields) : SpellsFront (gap ++ front) fields
  | cons {text after front : Text} {field : Text × Json} {fields : List (Text × Json)}
      (h : SpellsField text field) (ha : Gap after) (hf : SpellsFront front fields) :
      SpellsFront (text ++ after ++ .char ',' :: front) (field :: fields)

theorem spellsFront_gap {gap : Text} (h : Gap gap) : SpellsFront gap [] := by
  simpa using SpellsFront.gap h .nil

theorem SpellsFront.append {front more : Text} {fields others : List (Text × Json)}
    (h : SpellsFront front fields) (hmore : SpellsFront more others) :
    SpellsFront (front ++ more) (fields ++ others) := by
  induction h with
  | nil => exact hmore
  | gap hg hf ih => simpa using SpellsFront.gap hg ih
  | cons hfield ha hf ih => simpa using SpellsFront.cons hfield ha ih

theorem SpellsField.front {text : Text} {field : Text × Json} (h : SpellsField text field) :
    SpellsFront (text ++ [.char ',']) [field] := by
  simpa using SpellsFront.cons h gap_nil .nil

/-- Fields that are spelled one by one. -/
theorem spellsFront_flatMap {α : Type} {items : List α} {text : α → Text}
    {field : α → Text × Json} (h : ∀ item ∈ items, SpellsFront (text item) [field item]) :
    SpellsFront (items.flatMap text) (items.map field) := by
  induction items with
  | nil => exact .nil
  | cons item items ih =>
      obtain ⟨hitem, hitems⟩ := List.forall_mem_cons.mp h
      exact hitem.append (ih hitems)

theorem SpellsFront.length_le {front : Text} {fields : List (Text × Json)}
    (h : SpellsFront front fields) : fields.length ≤ front.length := by
  induction h with
  | nil => exact le_rfl
  | gap hg hf ih =>
      rw [List.length_append]
      omega
  | cons h ha hf ih =>
      simp only [List.length_append, List.length_cons]
      omega

/-- The fields of a front are entered one after another. -/
theorem SpellsFront.readFields {front : Text} {fields : List (Text × Json)}
    (h : SpellsFront front fields) {fuel room : Nat} (hf : front.length ≤ fuel)
    (hr : front.length ≤ room) (done : List (Text × Json)) (rest : Text) :
    Json.readFields fuel room done (skipGap (front ++ rest)) =
      Json.readFields (fuel - fields.length) room (Entries.merge done fields) (skipGap rest) := by
  induction h generalizing fuel done with
  | nil => rfl
  | gap hg hfront ih =>
      rw [List.length_append] at hf hr
      rw [List.append_assoc, Json.skipGap_append hg, ih (by omega) (by omega)]
  | @cons text after front field fields h ha hfront ih =>
      cases fuel with
      | zero => simp at hf
      | succ fuel =>
          simp only [List.length_append, List.length_cons] at hf hr
          have htext : text ++ after ++ CodePoint.char ',' :: front ++ rest =
              text ++ (after ++ .char ',' :: (front ++ rest)) := by
            simp
          have hstart := h.skipGap_append gap_nil (after ++ .char ',' :: (front ++ rest))
          rw [List.nil_append] at hstart
          rw [htext, hstart, (readFields_of_spells h ha (by omega) (by omega) done _).1,
            ih (by omega) (by omega), Entries.merge_cons, List.length_cons, Nat.add_sub_add_right]

/-- The first field of an object starts with a quote. -/
theorem SpellsFront.start {front rest : Text} {fields : List (Text × Json)}
    (h : SpellsFront front fields)
    (hrest : fields ≠ [] ∨ ∃ tail, skipGap rest = .char '"' :: tail) :
    ∃ tail, skipGap (front ++ rest) = .char '"' :: tail := by
  induction h with
  | nil => exact hrest.resolve_left fun hne => hne rfl
  | gap hg hf ih =>
      rw [List.append_assoc, Json.skipGap_append hg]
      exact ih hrest
  | cons h ha hf ih =>
      obtain ⟨tail, rfl⟩ := h.start
      exact ⟨_, skipGap_cons (by decide) _⟩

/-! ## Objects -/

theorem readValue_brace {rest tail : Text} (h : skipGap rest = .char '"' :: tail)
    (fuel room : Nat) :
    readValue (fuel + 1) (room + 1) (.char '{' :: rest) = readFields fuel room [] (skipGap rest) := by
  simp [readValue, h]

theorem spells_obj_nil {gap : Text} (h : Gap gap) :
    Spells (.char '{' :: (gap ++ [.char '}'])) (.obj []) := by
  refine ⟨⟨_, _, rfl, by decide⟩, ?_⟩
  intro fuel room rest hf hr
  cases fuel with
  | zero => simp at hf
  | succ fuel =>
      have hroom : room ≠ 0 := by
        rintro rfl
        simp at hr
      have hclose := skipGap_gap h (.char '}') rest (by decide)
      simp [readValue, hroom, hclose]

/-- Fields with commas between them, in braces, are an object; a repeated key keeps its place and
takes its last value. -/
theorem spells_obj {front text after : Text} {fields : List (Text × Json)}
    {field : Text × Json} (hfront : SpellsFront front fields) (h : SpellsField text field)
    (ha : Gap after) :
    Spells (.char '{' :: (front ++ (text ++ after ++ [.char '}'])))
      (.obj (Entries.merge [] (fields ++ [field]))) := by
  refine ⟨⟨_, _, rfl, by decide⟩, ?_⟩
  intro fuel room rest hf hr
  have hfields := hfront.length_le
  simp only [List.length_append, List.length_cons, List.length_nil] at hf hr
  obtain ⟨fuel, rfl⟩ : ∃ n, fuel = n + 1 := ⟨fuel - 1, by omega⟩
  obtain ⟨room, rfl⟩ : ∃ n, room = n + 1 := ⟨room - 1, by omega⟩
  obtain ⟨left, hleft⟩ : ∃ n, fuel - fields.length = n + 1 := ⟨fuel - fields.length - 1, by omega⟩
  have htext : text ++ after ++ [CodePoint.char '}'] ++ rest =
      text ++ (after ++ .char '}' :: rest) := by
    simp
  have hlast := h.skipGap_append gap_nil (after ++ .char '}' :: rest)
  rw [List.nil_append] at hlast
  obtain ⟨tail, hstart⟩ := h.start
  obtain ⟨first, hfirst⟩ :=
    hfront.start (Or.inr ⟨tail ++ (after ++ .char '}' :: rest), by rw [hlast, hstart]; rfl⟩)
  rw [List.cons_append, List.append_assoc, htext, readValue_brace hfirst,
    hfront.readFields (by omega) (by omega), hlast, hleft,
    (readFields_of_spells h ha (by omega) (by omega) _ rest).2, Entries.merge_concat]

theorem intercalate_concat {α : Type} (separator : List α) (parts : List (List α))
    (last : List α) :
    separator.intercalate (parts ++ [last]) = parts.flatMap (· ++ separator) ++ last := by
  induction parts with
  | nil => simp
  | cons part parts ih =>
      obtain ⟨next, rest, hnext⟩ := List.exists_cons_of_ne_nil
        (List.append_ne_nil_of_right_ne_nil parts (List.cons_ne_nil last []))
      rw [List.cons_append, hnext, List.intercalate_cons_cons, ← hnext, ih]
      simp

/-- Fields with nothing but commas between them. -/
theorem spells_intercalate {α : Type} {items : List α} {text : α → Text}
    {field : α → Text × Json} (h : ∀ item ∈ items, SpellsField (text item) (field item)) :
    Spells (.char '{' :: ([CodePoint.char ','].intercalate (items.map text) ++ [.char '}']))
      (.obj (Entries.merge [] (items.map field))) := by
  rcases items.eq_nil_or_concat' with rfl | ⟨front, last, rfl⟩
  · exact spells_obj_nil gap_nil
  · have hfront : ∀ item ∈ front, SpellsFront (text item ++ [.char ',']) [field item] :=
      fun item hm => (h item (List.mem_append_left _ hm)).front
    have hlast := h last (List.mem_append_right _ List.mem_cons_self)
    have hobject := spells_obj (spellsFront_flatMap hfront) hlast gap_nil
    rw [List.map_append, List.map_singleton, intercalate_concat, List.flatMap_map]
    simpa using hobject

/-! ## Refusals -/

/-- Whether a text is refused with an error where a value is expected. -/
structure Refused (text : Text) (error : ReadError) : Prop where
  start : ∃ c tail, text = c :: tail ∧ c.isIn isGap = false
  fails : ∀ fuel room, text.length ≤ fuel → text.length ≤ room →
    readValue fuel room text = .error error

theorem Refused.skipGap_append {text gap : Text} {error : ReadError} (h : Refused text error)
    (hg : Gap gap) : skipGap (gap ++ text) = text := by
  obtain ⟨c, tail, rfl, hc⟩ := h.start
  exact skipGap_gap hg c tail hc

theorem Refused.read {text : Text} {error : ReadError} (h : Refused text error) :
    Json.read text = .error error := by
  have hvalue := h.fails (text.length + 1) text.length (Nat.le_succ _) le_rfl
  have hskip : skipGap text = text := h.skipGap_append gap_nil
  unfold Json.read readWithin
  rw [hskip, hvalue]

/-- A comma behind the last field is refused. -/
theorem refused_of_trailing {front : Text} {fields : List (Text × Json)}
    (hfront : SpellsFront front fields) (hne : fields ≠ []) (rest : Text) :
    Refused (.char '{' :: (front ++ .char '}' :: rest)) .malformed := by
  refine ⟨⟨_, _, rfl, by decide⟩, ?_⟩
  intro fuel room hf hr
  have hfields := hfront.length_le
  simp only [List.length_append, List.length_cons] at hf hr
  obtain ⟨fuel, rfl⟩ : ∃ n, fuel = n + 1 := ⟨fuel - 1, by omega⟩
  obtain ⟨room, rfl⟩ : ∃ n, room = n + 1 := ⟨room - 1, by omega⟩
  obtain ⟨left, hleft⟩ : ∃ n, fuel - fields.length = n + 1 := ⟨fuel - fields.length - 1, by omega⟩
  have hclose : skipGap (.char '}' :: rest) = .char '}' :: rest := skipGap_cons (by decide) rest
  obtain ⟨first, hfirst⟩ := hfront.start (Or.inl hne)
  rw [readValue_brace hfirst, hfront.readFields (by omega) (by omega), hclose, hleft]
  simp [readFields]

/-- An object is refused with the value of one of its fields. -/
theorem refused_of_field {front key text : Text} {fields : List (Text × Json)}
    {error : ReadError} (hfront : SpellsFront front fields) (hk : Plain key)
    {before after : Text} (hb : Gap before) (ha : Gap after) (h : Refused text error) :
    Refused (.char '{' :: (front ++ (inQuotes key ++ (before ++ .char ':' :: (after ++ text)))))
      error := by
  refine ⟨⟨_, _, rfl, by decide⟩, ?_⟩
  intro fuel room hf hr
  have hfields := hfront.length_le
  simp only [inQuotes, List.length_append, List.length_cons, List.length_nil] at hf hr
  obtain ⟨fuel, rfl⟩ : ∃ n, fuel = n + 1 := ⟨fuel - 1, by omega⟩
  obtain ⟨room, rfl⟩ : ∃ n, room = n + 1 := ⟨room - 1, by omega⟩
  obtain ⟨left, hleft⟩ : ∃ n, fuel - fields.length = n + 1 := ⟨fuel - fields.length - 1, by omega⟩
  have htext : inQuotes key ++ (before ++ .char ':' :: (after ++ text)) =
      .char '"' :: (key ++ .char '"' :: (before ++ .char ':' :: (after ++ text))) := by
    simp [inQuotes]
  have hquote : ∀ tail, skipGap (.char '"' :: tail) = .char '"' :: tail :=
    skipGap_cons (by decide)
  have hcolon := skipGap_gap hb (.char ':') (after ++ text) (by decide)
  obtain ⟨first, hfirst⟩ := hfront.start (Or.inr ⟨_, hquote _⟩)
  rw [htext, readValue_brace hfirst, hfront.readFields (by omega) (by omega), hquote, hleft,
    readFields]
  simp only [readString_plain hk, hcolon, h.skipGap_append ha,
    h.fails left room (by omega) (by omega)]

end TableGateway.Json
