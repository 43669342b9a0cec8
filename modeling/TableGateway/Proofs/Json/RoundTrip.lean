import TableGateway.Proofs.Entries
import TableGateway.Proofs.Json.Integers

/-! # Reading what was written

A value without doubles, without long integers, without surrogates and without repeated keys is
written as one line of printable characters, and the reader gives it back from that line. -/

namespace TableGateway.Json

open Text (ofChars)

/-! ## Values -/

/-- Whether a text is read as a value where something may stand behind it. As the text bounds how
deep the value is nested, so does its length. -/
structure ReadsAs (text : Text) (value : Json) : Prop where
  start : ∃ c tail, text = c :: tail ∧ c.isIn isGap = false ∧ c ≠ .char ']'
  reads : ∀ fuel room rest, text.length ≤ fuel → text.length ≤ room → Ends rest →
    readValue fuel room (text ++ rest) = .ok (value, rest)

theorem ReadsAs.skipGap_eq {text : Text} {value : Json} (h : ReadsAs text value) (rest : Text) :
    skipGap (text ++ rest) = text ++ rest := by
  obtain ⟨c, tail, rfl, hc, -⟩ := h.start
  exact skipGap_cons hc (tail ++ rest)

/-- A text that is read as a value is that value. -/
theorem ReadsAs.read {text : Text} {value : Json} (h : ReadsAs text value) :
    read text = .ok value := by
  have hvalue := h.reads (text.length + 1) text.length [] (Nat.le_succ _) le_rfl ends_nil
  have hskip := h.skipGap_eq []
  rw [List.append_nil] at hvalue hskip
  unfold Json.read readWithin
  rw [hskip, hvalue]
  rfl

/-- A value that holds no others is read as one. -/
theorem readsAs_of_readScalar {c : Char} {tail : Text} {value : Json}
    (hgap : isGap c = false) (hbracket : c ∉ ['[', ']', '{'])
    (h : ∀ rest, Ends rest → readScalar (.char c :: tail ++ rest) = .ok (value, rest)) :
    ReadsAs (.char c :: tail) value := by
  have hne : ∀ d ∈ ['[', ']', '{'], CodePoint.char c ≠ .char d := by
    intro d hd he
    exact hbracket (CodePoint.char.inj he ▸ hd)
  refine ⟨⟨_, _, rfl, hgap, hne ']' (by decide)⟩, ?_⟩
  intro fuel room rest hf _ he
  cases fuel with
  | zero => exact absurd hf (Nat.not_succ_le_zero _)
  | succ fuel =>
      rw [List.cons_append, readValue]
      · exact h rest he
      · intro more hm
        exact hne '[' (by decide) (List.cons.inj hm).1
      · intro more hm
        exact hne '{' (by decide) (List.cons.inj hm).1

theorem readsAs_null : ReadsAs (ofChars (write .null)) .null := by
  apply readsAs_of_readScalar (by decide) (by decide)
  intro rest _
  rfl

theorem readsAs_bool (b : Bool) : ReadsAs (ofChars (write (.bool b))) (.bool b) := by
  cases b with
  | false =>
      apply readsAs_of_readScalar (by decide) (by decide)
      intro rest _
      rfl
  | true =>
      apply readsAs_of_readScalar (by decide) (by decide)
      intro rest _
      rfl

/-- The characters that something else than a number starts with, white space included. -/
def otherStarts : List Char := ['"', 'n', 't', 'f', 'N', '[', ']', '{', ' ', '\t', '\n', '\r']

theorem not_mem_otherStarts {c : Char} (h : c = '-' ∨ c.isDigit = true) : c ∉ otherStarts := by
  have hall : otherStarts.all (fun d => d != '-' && !d.isDigit) = true := by decide
  intro hc
  have hother := List.all_eq_true.mp hall c hc
  rcases h with rfl | h
  · exact absurd hother (by decide)
  · simp [h] at hother

theorem readScalar_of_readNumber {c : Char} {tail : Text} (h : c = '-' ∨ c.isDigit = true) :
    readScalar (.char c :: tail) = readNumber (.char c :: tail) := by
  have hne : ∀ d ∈ otherStarts, CodePoint.char c ≠ .char d := by
    intro d hd he
    exact not_mem_otherStarts h (CodePoint.char.inj he ▸ hd)
  have hwords : words.findSome? (fun word =>
      (Text.after? word.1 (.char c :: tail)).map (word.2, ·)) = none := by
    rw [List.findSome?_eq_none_iff]
    intro word hw
    rw [Option.map_eq_none_iff]
    simp only [words, List.mem_cons, List.not_mem_nil, or_false] at hw
    rcases hw with rfl | rfl | rfl | rfl
    · exact after?_of_head_ne (hne 'n' (by decide))
    · exact after?_of_head_ne (hne 't' (by decide))
    · exact after?_of_head_ne (hne 'f' (by decide))
    · exact after?_of_head_ne (hne 'N' (by decide))
  rw [readScalar]
  · rw [hwords]
  · intro more he
    exact hne '"' (by decide) (List.cons.inj he).1

theorem readsAs_int {n : Int} (h : (Nat.toDigits 10 n.natAbs).length ≤ digitLimit) :
    ReadsAs (ofChars (write (.int n))) (.int n) := by
  obtain ⟨c, tail, htext, hc⟩ : ∃ c tail, ofChars (intText n) = .char c :: tail ∧
      (c = '-' ∨ c.isDigit = true) := by
    unfold intText
    split
    next => exact ⟨'-', digits n.natAbs, rfl, Or.inl rfl⟩
    next =>
      obtain ⟨c, rest, hdigits, hc⟩ := exists_digits_eq_cons n.natAbs
      exact ⟨c, rest, hdigits, Or.inr hc⟩
  have hread : ∀ rest, Ends rest → readScalar (.char c :: tail ++ rest) = .ok (.int n, rest) := by
    intro rest he
    rw [List.cons_append, readScalar_of_readNumber hc, ← List.cons_append, ← htext]
    exact readNumber_intText h he
  have hstart := not_mem_otherStarts hc
  simp only [otherStarts, List.mem_cons, List.not_mem_nil, or_false, not_or] at hstart
  rw [write, htext]
  apply readsAs_of_readScalar _ _ hread
  · simp [isGap, hstart]
  · simp [hstart]

theorem readsAs_str {text : Text} (h : Text.Scalar text) :
    ReadsAs (ofChars (write (.str text))) (.str text) := by
  have htext : ofChars (write (.str text)) =
      .char '"' :: ofChars (text.flatMap escapePoint ++ ['"']) := rfl
  rw [htext]
  apply readsAs_of_readScalar (by decide) (by decide)
  intro rest _
  rw [List.cons_append, readScalar, readString_writeText h]
  rfl

/-! ## Arrays and objects -/

/-- An item is read up to the comma or the bracket behind it. -/
theorem ReadsAs.readItems_eq {text : Text} {item : Json} (h : ReadsAs text item) {fuel room : Nat}
    (hf : text.length ≤ fuel) (hr : text.length ≤ room) (done : List Json) (rest : Text) :
    readItems (fuel + 1) room done (text ++ .char ',' :: rest) =
        readItems fuel room (item :: done) (skipGap rest) ∧
      readItems (fuel + 1) room done (text ++ .char ']' :: rest) =
        .ok (.arr (done.reverse ++ [item]), rest) := by
  have hcomma : Ends (.char ',' :: rest) := ends_cons (by simp) rest
  have hclose : Ends (.char ']' :: rest) := ends_cons (by simp) rest
  constructor
  · simp only [readItems, h.reads fuel room _ hf hr hcomma, hcomma.skipGap_eq]
  · simp only [readItems, h.reads fuel room _ hf hr hclose, hclose.skipGap_eq, List.reverse_cons]

/-- Items that are read one by one are read up to the bracket behind them. -/
theorem readItems_write {first : Json} {items : List Json}
    (h : ∀ item ∈ first :: items, ReadsAs (ofChars (write item)) item) {fuel room : Nat}
    (hf : (write first).length + (writeItems items).length < fuel)
    (hr : (write first).length + (writeItems items).length ≤ room) (done : List Json)
    (rest : Text) :
    readItems fuel room done (ofChars (write first ++ writeItems items) ++ .char ']' :: rest) =
      .ok (.arr (done.reverse ++ first :: items), rest) := by
  obtain ⟨hfirst, hitems⟩ := List.forall_mem_cons.mp h
  have hsize : (ofChars (write first)).length = (write first).length := Text.length_ofChars _
  -- Every item takes one unit of fuel and at least one character, so the fuel never runs out.
  induction items generalizing first fuel done with
  | nil =>
      obtain ⟨fuel, rfl⟩ := Nat.exists_eq_succ_of_ne_zero (Nat.ne_zero_of_lt hf)
      simp only [writeItems, List.append_nil]
      exact (hfirst.readItems_eq (by omega) (by omega) done rest).2
  | cons item items ih =>
      obtain ⟨fuel, rfl⟩ := Nat.exists_eq_succ_of_ne_zero (Nat.ne_zero_of_lt hf)
      obtain ⟨hitem, hothers⟩ := List.forall_mem_cons.mp hitems
      simp only [writeItems, List.length_append, List.length_cons] at hf hr
      have htext : ofChars (write first ++ writeItems (item :: items)) ++ .char ']' :: rest =
          ofChars (write first) ++ .char ',' :: .char ' ' ::
            (ofChars (write item ++ writeItems items) ++ .char ']' :: rest) := by
        simp [writeItems]
      have hskip : skipGap (.char ' ' ::
          (ofChars (write item ++ writeItems items) ++ .char ']' :: rest)) =
          ofChars (write item ++ writeItems items) ++ .char ']' :: rest := by
        rw [Text.ofChars_append, List.append_assoc]
        exact hitem.skipGap_eq _
      rw [htext, (hfirst.readItems_eq (by omega) (by omega) done _).1, hskip,
        ih hitems (by omega) (by omega) (first :: done) hitem hothers (Text.length_ofChars _)]
      simp

theorem readValue_bracket {rest tail : Text} {c : CodePoint} (h : skipGap rest = c :: tail)
    (hc : c ≠ .char ']') (fuel room : Nat) :
    readValue (fuel + 1) (room + 1) (.char '[' :: rest) =
      readItems fuel room [] (skipGap rest) := by
  rw [readValue, if_neg (Nat.succ_ne_zero room), Nat.add_sub_cancel]
  split
  next more he =>
    rw [h] at he
    exact absurd (List.cons.inj he).1 hc
  next => rfl

/-- What a bracket or a brace opens is read with fuel and room to spare. -/
theorem readsAs_of_opening {opening : Char} {body : List Char} {value : Json}
    (hgap : isGap opening = false) (hclose : opening ≠ ']')
    (h : ∀ fuel room rest, body.length ≤ fuel → body.length ≤ room →
      readValue (fuel + 1) (room + 1) (.char opening :: (ofChars body ++ rest)) =
        .ok (value, rest)) :
    ReadsAs (ofChars (opening :: body)) value := by
  refine ⟨⟨_, _, rfl, hgap, fun he => hclose (CodePoint.char.inj he)⟩, ?_⟩
  intro fuel room rest hf hr _
  rw [Text.length_ofChars, List.length_cons] at hf hr
  obtain ⟨fuel, rfl⟩ := Nat.exists_eq_succ_of_ne_zero (Nat.ne_zero_of_lt hf)
  obtain ⟨room, rfl⟩ := Nat.exists_eq_succ_of_ne_zero (Nat.ne_zero_of_lt hr)
  exact h fuel room rest (by omega) (by omega)

theorem readsAs_arr {items : List Json} (h : ∀ item ∈ items, ReadsAs (ofChars (write item)) item) :
    ReadsAs (ofChars (write (.arr items))) (.arr items) := by
  cases items with
  | nil => exact readsAs_of_opening (by decide) (by decide) fun _ _ _ _ _ => rfl
  | cons first items =>
      have hfirst := h first List.mem_cons_self
      apply readsAs_of_opening (by decide) (by decide)
      intro fuel room rest hf hr
      simp only [List.length_append, List.length_singleton] at hf hr
      have htext : ofChars (write first ++ writeItems items ++ [']']) ++ rest =
          ofChars (write first ++ writeItems items) ++ .char ']' :: rest := by
        simp
      have hskip : skipGap (ofChars (write first ++ writeItems items) ++ .char ']' :: rest) =
          ofChars (write first ++ writeItems items) ++ .char ']' :: rest := by
        rw [Text.ofChars_append, List.append_assoc]
        exact hfirst.skipGap_eq _
      obtain ⟨c, tail, hc, -, hbracket⟩ := hfirst.start
      have hstart : skipGap (ofChars (write first ++ writeItems items) ++ .char ']' :: rest) =
          c :: (tail ++ (ofChars (writeItems items) ++ .char ']' :: rest)) := by
        rw [hskip, Text.ofChars_append, hc, List.append_assoc, List.cons_append]
      rw [htext, readValue_bracket hstart hbracket, hskip]
      exact readItems_write h (by omega) (by omega) [] rest

/-- A field as it is written: its key, a colon and its value. -/
def writeField (field : Text × Json) : List Char :=
  writeText field.1 ++ ':' :: ' ' :: write field.2

theorem writeFields_cons (field : Text × Json) (fields : List (Text × Json)) :
    writeFields (field :: fields) = ',' :: ' ' :: (writeField field ++ writeFields fields) := rfl

/-- Whether a field is read from what is written for it. -/
structure FieldReads (field : Text × Json) : Prop where
  key : Text.Scalar field.1
  value : ReadsAs (ofChars (write field.2)) field.2

/-- A field is read up to the comma or the brace behind it. -/
theorem readFields_writeField {field : Text × Json} (h : FieldReads field) {fuel room : Nat}
    (hf : (write field.2).length ≤ fuel) (hr : (write field.2).length ≤ room)
    (done : List (Text × Json)) (rest : Text) :
    readFields (fuel + 1) room done (ofChars (writeField field) ++ .char ',' :: rest) =
        readFields fuel room (Entries.put field.1 field.2 done) (skipGap rest) ∧
      readFields (fuel + 1) room done (ofChars (writeField field) ++ .char '}' :: rest) =
        .ok (.obj (Entries.put field.1 field.2 done), rest) := by
  obtain ⟨hk, hv⟩ := h
  have htext : ∀ rest, ofChars (writeField field) ++ rest =
      .char '"' :: (ofChars (field.1.flatMap escapePoint ++ ['"']) ++
        .char ':' :: .char ' ' :: (ofChars (write field.2) ++ rest)) := by
    intro rest
    simp [writeField, writeText]
  have hcolon : ∀ rest, skipGap (.char ':' :: rest) = .char ':' :: rest :=
    fun rest => skipGap_cons (by decide) rest
  have hblank : ∀ rest, skipGap (.char ' ' :: (ofChars (write field.2) ++ rest)) =
      ofChars (write field.2) ++ rest :=
    fun rest => hv.skipGap_eq rest
  have hvalue : ∀ rest, Ends rest →
      readValue fuel room (ofChars (write field.2) ++ rest) = .ok (field.2, rest) := by
    intro rest he
    apply hv.reads fuel room rest _ _ he
    · rwa [Text.length_ofChars]
    · rwa [Text.length_ofChars]
  constructor
  · have hcomma : Ends (.char ',' :: rest) := ends_cons (by simp) rest
    rw [htext, readFields]
    simp only [readString_writeText hk, hcolon, hblank, hvalue _ hcomma, hcomma.skipGap_eq]
  · have hclose : Ends (.char '}' :: rest) := ends_cons (by simp) rest
    rw [htext, readFields]
    simp only [readString_writeText hk, hcolon, hblank, hvalue _ hclose, hclose.skipGap_eq]

/-- Fields that are read one by one are read up to the brace behind them. -/
theorem readFields_write {first : Text × Json} {fields : List (Text × Json)}
    (h : ∀ field ∈ first :: fields, FieldReads field) {fuel room : Nat}
    (hf : (writeField first).length + (writeFields fields).length < fuel)
    (hr : (writeField first).length + (writeFields fields).length ≤ room)
    (done : List (Text × Json)) (rest : Text) :
    readFields fuel room done
        (ofChars (writeField first ++ writeFields fields) ++ .char '}' :: rest) =
      .ok (.obj (Entries.merge done (first :: fields)), rest) := by
  have hvalue : ∀ field : Text × Json, (write field.2).length ≤ (writeField field).length := by
    intro field
    simp only [writeField, List.length_append, List.length_cons]
    omega
  have hsize := hvalue first
  induction fields generalizing first fuel done with
  | nil =>
      obtain ⟨fuel, rfl⟩ := Nat.exists_eq_succ_of_ne_zero (Nat.ne_zero_of_lt hf)
      simp only [writeFields, List.append_nil]
      exact (readFields_writeField (h first List.mem_cons_self) (by omega) (by omega) done rest).2
  | cons field fields ih =>
      obtain ⟨fuel, rfl⟩ := Nat.exists_eq_succ_of_ne_zero (Nat.ne_zero_of_lt hf)
      obtain ⟨hfirst, hfields⟩ := List.forall_mem_cons.mp h
      simp only [writeFields_cons, List.length_append, List.length_cons] at hf hr
      have htext :
          ofChars (writeField first ++ writeFields (field :: fields)) ++ .char '}' :: rest =
            ofChars (writeField first) ++ .char ',' :: .char ' ' ::
              (ofChars (writeField field ++ writeFields fields) ++ .char '}' :: rest) := by
        simp [writeFields_cons]
      have hskip : skipGap (.char ' ' ::
          (ofChars (writeField field ++ writeFields fields) ++ .char '}' :: rest)) =
          ofChars (writeField field ++ writeFields fields) ++ .char '}' :: rest := rfl
      rw [htext, (readFields_writeField hfirst (by omega) (by omega) done _).1, hskip,
        ih hfields (by omega) (by omega) _ (hvalue field)]
      rfl

theorem readsAs_obj {fields : List (Text × Json)} (hn : (Entries.keys fields).Nodup)
    (h : ∀ field ∈ fields, FieldReads field) :
    ReadsAs (ofChars (write (.obj fields))) (.obj fields) := by
  cases fields with
  | nil => exact readsAs_of_opening (by decide) (by decide) fun _ _ _ _ _ => rfl
  | cons first fields =>
      have hwrite : write (.obj (first :: fields)) =
          '{' :: (writeField first ++ writeFields fields ++ ['}']) := rfl
      rw [hwrite]
      apply readsAs_of_opening (by decide) (by decide)
      intro fuel room rest hf hr
      simp only [List.length_append, List.length_singleton] at hf hr
      have htext : ofChars (writeField first ++ writeFields fields ++ ['}']) ++ rest =
          ofChars (writeField first ++ writeFields fields) ++ .char '}' :: rest := by
        simp
      obtain ⟨tail, hstart⟩ : ∃ tail, skipGap
          (ofChars (writeField first ++ writeFields fields) ++ .char '}' :: rest) =
            .char '"' :: tail := ⟨_, rfl⟩
      have hmerge : Entries.merge [] (first :: fields) = first :: fields :=
        Entries.merge_eq_append hn fun _ _ => List.not_mem_nil
      have hread := @readFields_write first fields h fuel room (by omega) (by omega) [] rest
      rw [htext, readValue_brace hstart, ← hmerge]
      exact hread

/-! ## Portable values -/

/-- The values that every reader takes alike: without doubles, with integers that are not too long,
with texts of characters only, and without a key that occurs twice. -/
inductive Portable : Json → Prop
  | null : Portable .null
  | bool (b : Bool) : Portable (.bool b)
  | int {n : Int} (h : (Nat.toDigits 10 n.natAbs).length ≤ digitLimit) : Portable (.int n)
  | str {text : Text} (h : Text.Scalar text) : Portable (.str text)
  | arr {items : List Json} (h : ∀ item ∈ items, Portable item) : Portable (.arr items)
  | obj {fields : List (Text × Json)} (hn : (Entries.keys fields).Nodup)
      (hk : ∀ field ∈ fields, Text.Scalar field.1) (hv : ∀ field ∈ fields, Portable field.2) :
      Portable (.obj fields)

theorem Portable.readsAs {j : Json} (h : Portable j) : ReadsAs (ofChars (write j)) j := by
  induction h with
  | null => exact readsAs_null
  | bool b => exact readsAs_bool b
  | int h => exact readsAs_int h
  | str h => exact readsAs_str h
  | arr _ ih => exact readsAs_arr ih
  | obj hn hk _ ih => exact readsAs_obj hn fun field hf => ⟨hk field hf, ih field hf⟩

/-- The reader gives a portable value back from what was written for it. -/
theorem Portable.parse_render {j : Json} (h : Portable j) : parse j.render = .ok j := by
  have htext : Text.ofString j.render = ofChars (write j) := by
    rw [Text.ofString, render, String.toList_ofList]
  rw [parse, htext]
  exact h.readsAs.read

theorem allPrintable_intText (n : Int) : AllPrintable (intText n) := by
  have hdigits : AllPrintable (Nat.toDigits 10 n.natAbs) := by
    intro c hc
    have hd := Nat.isDigit_of_mem_toDigits (by decide) (by decide) hc
    rw [Char.isDigit_iff_toNat] at hd
    exact ⟨le_trans (by decide) hd.1, le_trans hd.2 (by decide)⟩
  unfold intText
  split
  next => exact .cons (by decide) hdigits
  next => exact hdigits

theorem allPrintable_writeItems {items : List Json} (h : ∀ item ∈ items, AllPrintable (write item)) :
    AllPrintable (writeItems items) := by
  induction items with
  | nil => exact nofun
  | cons item items ih =>
      obtain ⟨hitem, hitems⟩ := List.forall_mem_cons.mp h
      exact .cons (by decide) (.cons (by decide) (hitem.append (ih hitems)))

theorem allPrintable_writeFields {fields : List (Text × Json)}
    (h : ∀ field ∈ fields, AllPrintable (writeField field)) :
    AllPrintable (writeFields fields) := by
  induction fields with
  | nil => exact nofun
  | cons field fields ih =>
      obtain ⟨hfield, hfields⟩ := List.forall_mem_cons.mp h
      exact .cons (by decide) (.cons (by decide) (hfield.append (ih hfields)))

/-- What is written for a portable value is printable. -/
theorem Portable.allPrintable {j : Json} (h : Portable j) : AllPrintable (write j) := by
  have hend : ∀ c, IsPrintable c → AllPrintable [c] := fun c hc => .cons hc nofun
  induction h with
  | null => decide
  | bool b => cases b <;> decide
  | @int n _ => exact allPrintable_intText n
  | str h => exact allPrintable_writeText h
  | @arr items _ ih =>
      cases items with
      | nil => decide
      | cons first items =>
          obtain ⟨hfirst, hitems⟩ := List.forall_mem_cons.mp ih
          have hinner := hfirst.append (allPrintable_writeItems hitems)
          exact .cons (by decide) (hinner.append (hend ']' (by decide)))
  | @obj fields _ hk _ ih =>
      have hfield : ∀ field ∈ fields, AllPrintable (writeField field) := by
        intro field hf
        have hkey := allPrintable_writeText (hk field hf)
        exact hkey.append (.cons (by decide) (.cons (by decide) (ih field hf)))
      cases fields with
      | nil => decide
      | cons first fields =>
          obtain ⟨hfirst, hfields⟩ := List.forall_mem_cons.mp hfield
          have hinner := hfirst.append (allPrintable_writeFields hfields)
          exact .cons (by decide) (hinner.append (hend '}' (by decide)))

end TableGateway.Json
