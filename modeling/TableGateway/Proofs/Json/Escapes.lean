import TableGateway.Json.Writer
import TableGateway.Proofs.Json.Plain

/-! # Strings that were written

The writer escapes what is not printable ASCII, a character beyond the basic plane by two
surrogates. The reader takes each escape back, and so whole strings of characters. -/

namespace TableGateway

namespace Text

@[simp] theorem ofChars_nil : ofChars [] = [] := rfl

@[simp] theorem ofChars_cons (c : Char) (cs : List Char) :
    ofChars (c :: cs) = .char c :: ofChars cs := rfl

@[simp] theorem ofChars_append (cs more : List Char) :
    ofChars (cs ++ more) = ofChars cs ++ ofChars more :=
  List.map_append

@[simp] theorem length_ofChars (cs : List Char) : (ofChars cs).length = cs.length :=
  List.length_map _

/-- Whether a text is made of characters, without surrogates. -/
def Scalar (text : Text) : Prop := ∀ p ∈ text, p.isIn (fun _ => true) = true

instance (text : Text) : Decidable (Scalar text) :=
  inferInstanceAs (Decidable (∀ p ∈ text, p.isIn (fun _ => true) = true))

theorem hexDigit?_digitChar : ∀ d < 16, hexDigit? (Nat.digitChar d) = some d := by decide

end Text

namespace Json

open Text (ofChars)

/-! ## Printable characters -/

/-- Whether a character is one of printable ASCII. -/
def IsPrintable (c : Char) : Prop := 32 ≤ c.toNat ∧ c.toNat ≤ 126

instance (c : Char) : Decidable (IsPrintable c) :=
  inferInstanceAs (Decidable (32 ≤ c.toNat ∧ c.toNat ≤ 126))

/-- Whether all characters are printable. -/
def AllPrintable (cs : List Char) : Prop := ∀ c ∈ cs, IsPrintable c

instance (cs : List Char) : Decidable (AllPrintable cs) := List.decidableBAll IsPrintable cs

theorem AllPrintable.append {front back : List Char} (hf : AllPrintable front)
    (hb : AllPrintable back) : AllPrintable (front ++ back) :=
  List.forall_mem_append.mpr ⟨hf, hb⟩

theorem AllPrintable.cons {c : Char} {cs : List Char} (hc : IsPrintable c)
    (h : AllPrintable cs) : AllPrintable (c :: cs) :=
  List.forall_mem_cons.mpr ⟨hc, h⟩

/-! ## Escapes -/

/-- The characters that are written by a letter behind a backslash, with their letters. -/
def letters : List (Char × Char) :=
  [('"', '"'), ('\\', '\\'), ('\n', 'n'), ('\r', 'r'), ('\t', 't'), ('\x08', 'b'),
    ('\x0c', 'f')]

/-- The classes of escapes: a letter behind a backslash, the character itself, its number, and the
numbers of two surrogates for a character beyond the basic plane. -/
inductive Escaped : Char → List Char → Prop
  | letter {c l : Char} (h : (c, l) ∈ letters) : Escaped c ['\\', l]
  | plain {c : Char} (hc : c ∉ letters.map Prod.fst) (hp : IsPrintable c) : Escaped c [c]
  | unit {c : Char} (h : c.toNat < 0x10000) : Escaped c (unitEscape c.toNat)
  | pair {c : Char} (h : 0x10000 ≤ c.toNat) :
      Escaped c (unitEscape (0xd800 + (c.toNat - 0x10000) / 0x400) ++
        unitEscape (0xdc00 + (c.toNat - 0x10000) % 0x400))

theorem letter_spec {c l : Char} (h : (c, l) ∈ letters) :
    escape c = ['\\', l] ∧ escapedLetter? (.char l) = some (.char c) ∧ l ≠ 'u' ∧
      IsPrintable l := by
  simp only [letters, List.mem_cons, List.not_mem_nil, or_false, Prod.mk.injEq] at h
  rcases h with ⟨rfl, rfl⟩ | ⟨rfl, rfl⟩ | ⟨rfl, rfl⟩ | ⟨rfl, rfl⟩ | ⟨rfl, rfl⟩ | ⟨rfl, rfl⟩ |
    ⟨rfl, rfl⟩
  all_goals decide

theorem escaped_escape (c : Char) : Escaped c (escape c) := by
  by_cases hc : c ∈ letters.map Prod.fst
  · obtain ⟨⟨c, l⟩, hl, rfl⟩ := List.mem_map.mp hc
    rw [(letter_spec hl).1]
    exact .letter hl
  · have hne := hc
    simp only [letters, List.map_cons, List.map_nil, List.mem_cons, List.not_mem_nil, or_false,
      not_or] at hne
    simp only [escape, hne, if_false]
    split
    next hp => exact .plain hc hp
    next =>
      split
      next h => exact .unit h
      next h => exact .pair (Nat.not_lt.mp h)

theorem isPrintable_digitChar : ∀ d < 16, IsPrintable (Nat.digitChar d) := by decide

theorem allPrintable_unitEscape (unit : Nat) : AllPrintable (unitEscape unit) := by
  apply AllPrintable.cons (by decide)
  apply AllPrintable.cons (by decide)
  intro c hc
  obtain ⟨place, -, rfl⟩ := List.mem_map.mp hc
  exact isPrintable_digitChar _ (Nat.mod_lt _ (by decide))

theorem Escaped.allPrintable {c : Char} {cs : List Char} (h : Escaped c cs) :
    AllPrintable cs := by
  cases h with
  | letter h =>
      obtain ⟨-, -, -, hp⟩ := letter_spec h
      exact .cons (by decide) (.cons hp nofun)
  | plain _ hp => exact .cons hp nofun
  | unit => exact allPrintable_unitEscape _
  | pair => exact (allPrintable_unitEscape _).append (allPrintable_unitEscape _)

theorem Escaped.start {c : Char} {cs : List Char} (h : Escaped c cs) :
    ∃ first rest, cs = first :: rest ∧ first ≠ '"' := by
  cases h with
  | letter => exact ⟨_, _, rfl, by decide⟩
  | plain hc =>
      refine ⟨_, _, rfl, ?_⟩
      rintro rfl
      exact hc (by decide)
  | unit => exact ⟨_, _, rfl, by decide⟩
  | pair => exact ⟨_, _, rfl, by decide⟩

theorem readUnit_hex {unit : Nat} (h : unit < 0x10000) (rest : Text) :
    readUnit (ofChars (Text.hex 4 unit) ++ rest) = some (unit, rest) := by
  have hdigit : ∀ n, readHexDigit (.char (Nat.digitChar (n % 16))) = some (n % 16) :=
    fun n => Text.hexDigit?_digitChar _ (Nat.mod_lt n (by decide))
  have hhex : Text.hex 4 unit =
      [Nat.digitChar (unit / 4096 % 16), Nat.digitChar (unit / 256 % 16),
        Nat.digitChar (unit / 16 % 16), Nat.digitChar (unit / 1 % 16)] := rfl
  have hvalue : 4096 * (unit / 4096 % 16) + 256 * (unit / 256 % 16) + 16 * (unit / 16 % 16) +
      unit / 1 % 16 = unit := by
    omega
  rw [hhex]
  simp only [Text.ofChars_cons, Text.ofChars_nil, List.cons_append, List.nil_append, readUnit,
    hdigit, Option.bind_eq_bind, Option.bind_some, hvalue]

theorem readUnits_hex {unit : Nat} (h : unit < 0x10000) (hs : ¬ (0xd800 ≤ unit ∧ unit < 0xdc00))
    (rest : Text) :
    readUnits (ofChars (Text.hex 4 unit) ++ rest) = some (.ofNat unit, rest) := by
  unfold readUnits
  simp only [readUnit_hex h, if_neg hs]

theorem readUnits_pair (high low : Nat) (hhigh : 0xd800 ≤ high ∧ high < 0xdc00)
    (hlow : 0xdc00 ≤ low ∧ low < 0xe000) (rest : Text) :
    readUnits (ofChars (Text.hex 4 high) ++ (ofChars (unitEscape low) ++ rest)) =
      some (.ofNat (0x10000 + (high - 0xd800) * 0x400 + (low - 0xdc00)), rest) := by
  unfold readUnits
  simp only [readUnit_hex (show high < 0x10000 by omega), if_pos hhigh, unitEscape,
    Text.ofChars_cons, List.cons_append, readUnit_hex (show low < 0x10000 by omega), if_pos hlow]

theorem readPoint_unitEscape (digits rest : Text) :
    readPoint (.char '\\' :: .char 'u' :: (digits ++ rest)) = readUnits (digits ++ rest) := by
  simp [readPoint]

theorem ofNat_toNat_char (c : Char) : CodePoint.ofNat c.toNat = .char c :=
  CodePoint.ofNat_toNat (.char c)

theorem toNat_valid (c : Char) :
    c.toNat < 0xd800 ∨ (0xdfff < c.toNat ∧ c.toNat < 0x110000) := c.valid

theorem Escaped.readPoint_eq {c : Char} {cs : List Char} (h : Escaped c cs) (rest : Text) :
    readPoint (ofChars cs ++ rest) = some (.char c, rest) := by
  have hvalid := toNat_valid c
  cases h with
  | @letter l h =>
      obtain ⟨-, hread, hu, -⟩ := letter_spec h
      have hne : CodePoint.char l ≠ .char 'u' := fun he => hu (CodePoint.char.inj he)
      simp [readPoint, hne, hread]
  | plain hc hp =>
      have hne : CodePoint.char c ≠ .char '\\' := by
        intro he
        rw [CodePoint.char.inj he] at hc
        exact hc (by decide)
      have hsize : ¬ (CodePoint.char c).toNat < 32 := Nat.not_lt.mpr hp.1
      simp [readPoint, hne, hsize]
  | unit h =>
      have hread := readUnits_hex h (by omega) rest
      simp only [unitEscape, Text.ofChars_cons, List.cons_append, readPoint_unitEscape, hread,
        ofNat_toNat_char]
  | pair h =>
      have hread := readUnits_pair (0xd800 + (c.toNat - 0x10000) / 0x400)
        (0xdc00 + (c.toNat - 0x10000) % 0x400) (by omega) (by omega) rest
      have hvalue : 0x10000 + (0xd800 + (c.toNat - 0x10000) / 0x400 - 0xd800) * 0x400 +
          (0xdc00 + (c.toNat - 0x10000) % 0x400 - 0xdc00) = c.toNat := by
        omega
      rw [hvalue, ofNat_toNat_char] at hread
      rw [Text.ofChars_append, List.append_assoc]
      exact (readPoint_unitEscape _ _).trans hread

/-! ## Strings -/

theorem Escaped.spellsPoint {c : Char} {cs : List Char} (h : Escaped c cs) :
    SpellsPoint (ofChars cs) (.char c) := by
  obtain ⟨first, more, rfl, hquote⟩ := h.start
  refine ⟨⟨_, _, rfl, fun he => hquote (CodePoint.char.inj he)⟩, ?_⟩
  intro rest
  exact h.readPoint_eq rest

/-- What is written for a code point of a text of characters. -/
theorem exists_escaped {text : Text} (h : Text.Scalar text) {p : CodePoint} (hp : p ∈ text) :
    ∃ c, p = .char c ∧ Escaped c (escapePoint p) := by
  cases p with
  | char c => exact ⟨c, rfl, escaped_escape c⟩
  | surrogate offset =>
      have hsurrogate := h _ hp
      cases hsurrogate

/-- A string is read back from what stands behind its opening quote. -/
theorem readString_writeText {text : Text} (h : Text.Scalar text) (rest : Text) :
    readString (ofChars (text.flatMap escapePoint ++ ['"']) ++ rest) = .ok (text, rest) := by
  have hspells : ∀ p ∈ text, SpellsPoint (ofChars (escapePoint p)) p := by
    intro p hp
    obtain ⟨c, rfl, hescaped⟩ := exists_escaped h hp
    exact hescaped.spellsPoint
  have htext : ofChars (text.flatMap escapePoint ++ ['"']) ++ rest =
      (text.flatMap fun p => ofChars (escapePoint p)) ++ .char '"' :: rest := by
    rw [Text.ofChars_append, List.append_assoc, ofChars, List.map_flatMap]
    rfl
  rw [htext]
  exact readString_spelled hspells rest

theorem allPrintable_writeText {text : Text} (h : Text.Scalar text) :
    AllPrintable (writeText text) := by
  have hpoints : AllPrintable (text.flatMap escapePoint) := by
    intro c hc
    obtain ⟨p, hp, hc⟩ := List.mem_flatMap.mp hc
    obtain ⟨d, -, hescaped⟩ := exists_escaped h hp
    exact hescaped.allPrintable c hc
  exact .cons (by decide) (hpoints.append (by decide))

end Json

end TableGateway
