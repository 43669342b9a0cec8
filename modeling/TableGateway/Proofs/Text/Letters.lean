import TableGateway.Proofs.Text.Trim
import TableGateway.Text.Case

/-! # ASCII letters and digits

Within ASCII a change of case is a change of one letter into one other. So a text of letters and
digits stays one when it gets a capital, and a word in lower case can be told from its capitalized
form, whose only capital is the first letter. -/

namespace TableGateway.Text

/-! ## Texts of letters and digits -/

def Alphanumeric (text : Text) : Prop := AllOf (·.isIn Char.isAlphanum) text

instance (text : Text) : Decidable (Alphanumeric text) :=
  inferInstanceAs (Decidable (∀ c ∈ text, c.isIn Char.isAlphanum = true))

theorem exists_char_of_isIn {members : Char → Bool} {p : CodePoint}
    (h : p.isIn members = true) : ∃ c, p = .char c ∧ members c = true := by
  cases p with
  | char c => exact ⟨c, rfl, h⟩
  | surrogate offset => cases h

theorem alphanumeric_append {front back : Text} :
    Alphanumeric (front ++ back) ↔ Alphanumeric front ∧ Alphanumeric back :=
  List.forall_mem_append

theorem alphanumeric_flatMap {f : Text → Text} (h : ∀ piece, Alphanumeric (f piece))
    (pieces : List Text) : Alphanumeric (pieces.flatMap f) := by
  induction pieces with
  | nil => exact nofun
  | cons piece rest ih => exact alphanumeric_append.mpr ⟨h piece, ih⟩

theorem alphanumeric_filter (text : Text) :
    Alphanumeric (text.filter (·.isIn Char.isAlphanum)) :=
  fun _ hc => (List.mem_filter.mp hc).2

/-! ## The upper case of a letter or digit -/

theorem toNat_lt_of_isAlphanum {c : Char} (h : c.isAlphanum = true) : c.toNat < 128 := by
  have hranges : (decide (c.val ≥ 'A'.val ∧ c.val ≤ 'Z'.val) ||
      (decide (c.val ≥ 'a'.val) && decide (c.val ≤ 'z'.val)) ||
      (decide (c.val ≥ '0'.val) && decide (c.val ≤ '9'.val))) = true := h
  simp only [Bool.or_eq_true, Bool.and_eq_true, decide_eq_true_eq, UInt32.le_iff_toNat_le,
    ge_iff_le] at hranges
  have hc : c.toNat = c.val.toNat := rfl
  have hupper : 'Z'.val.toNat = 90 := rfl
  have hlower : 'z'.val.toNat = 122 := rfl
  have hdigit : '9'.val.toNat = 57 := rfl
  omega

/-- What holds of the 128 characters of ASCII holds of every letter and digit. -/
theorem forall_isAlphanum {motive : Char → Prop} (h : ∀ n < 128, motive (Char.ofNat n)) {c : Char}
    (hc : c.isAlphanum = true) : motive c := by
  have hall := h c.toNat (toNat_lt_of_isAlphanum hc)
  rwa [Char.ofNat_toNat] at hall

theorem isAlphanum_toUpper {c : Char} (h : c.isAlphanum = true) : c.toUpper.isAlphanum = true := by
  have hall : ∀ n < 128, (Char.ofNat n).isAlphanum = true →
      (Char.ofNat n).toUpper.isAlphanum = true := by
    decide +kernel
  exact forall_isAlphanum (motive := fun c => c.isAlphanum = true → c.toUpper.isAlphanum = true)
    hall h h

theorem isLower_toUpper {c : Char} (h : c.isAlphanum = true) : c.toUpper.isLower = false := by
  have hall : ∀ n < 128, (Char.ofNat n).toUpper.isLower = false := by decide +kernel
  exact forall_isAlphanum (motive := fun c => c.toUpper.isLower = false) hall h

/-- The upper case of a letter or digit is one character. -/
theorem upperFirst_cons_of_isAlphanum {c : Char} (h : c.isAlphanum = true) (rest : Text) :
    upperFirst (.char c :: rest) = .char c.toUpper :: rest := by
  simp [upperFirst, upperPoint, upperChar, toNat_lt_of_isAlphanum h, ofChars]

theorem upperFirst_eq_nil_iff {text : Text} (h : Alphanumeric text) :
    upperFirst text = [] ↔ text = [] := by
  cases text with
  | nil => simp [upperFirst]
  | cons p rest =>
      obtain ⟨c, rfl, hc⟩ := exists_char_of_isIn (h p List.mem_cons_self)
      simp [upperFirst_cons_of_isAlphanum hc]

theorem alphanumeric_upperFirst {text : Text} (h : Alphanumeric text) :
    Alphanumeric (upperFirst text) := by
  cases text with
  | nil => exact h
  | cons p rest =>
      obtain ⟨hp, hrest⟩ := List.forall_mem_cons.mp h
      obtain ⟨c, rfl, hc⟩ := exists_char_of_isIn hp
      rw [upperFirst_cons_of_isAlphanum hc]
      exact List.forall_mem_cons.mpr ⟨isAlphanum_toUpper hc, hrest⟩

/-- A text of letters and digits that gets a capital does not start in lower case. -/
theorem isLower_head_upperFirst {text : Text} (h : Alphanumeric text) {first : CodePoint}
    (hf : (upperFirst text).head? = some first) : first.isIn Char.isLower = false := by
  cases text with
  | nil => cases hf
  | cons p rest =>
      obtain ⟨c, rfl, hc⟩ := exists_char_of_isIn (h p List.mem_cons_self)
      rw [upperFirst_cons_of_isAlphanum hc] at hf
      obtain rfl := Option.some.inj hf
      exact isLower_toUpper hc

/-! ## Words in lower case -/

/-- Whether a text is a word in lower case: one or more ASCII letters. -/
structure LowerWord (text : Text) : Prop where
  ne_nil : text ≠ []
  lower : AllOf (·.isIn Char.isLower) text

def isCapital (c : CodePoint) : Bool := c.isIn Char.isUpper

theorem isAlphanum_of_isLower {c : Char} (h : c.isLower = true) : c.isAlphanum = true := by
  have hletter : c.isAlpha = true := Bool.or_eq_true_iff.mpr (Or.inr h)
  exact Bool.or_eq_true_iff.mpr (Or.inl hletter)

/-- What a change of case makes of a small letter. -/
structure SmallLetter (c : Char) : Prop where
  not_upper : c.isUpper = false
  lower : c.toLower = c
  upper : c.toUpper.isUpper = true
  back : c.toUpper.toLower = c

theorem smallLetter_of_isLower {c : Char} (h : c.isLower = true) : SmallLetter c := by
  have hall : ∀ n < 128, (Char.ofNat n).isLower = true →
      (Char.ofNat n).isUpper = false ∧ (Char.ofNat n).toLower = Char.ofNat n ∧
      (Char.ofNat n).toUpper.isUpper = true ∧
      (Char.ofNat n).toUpper.toLower = Char.ofNat n := by
    decide +kernel
  refine forall_isAlphanum (motive := fun c => c.isLower = true → SmallLetter c) ?_
    (isAlphanum_of_isLower h) h
  intro n hn hlower
  obtain ⟨hupper, hself, hcapital, hback⟩ := hall n hn hlower
  exact ⟨hupper, hself, hcapital, hback⟩

theorem isCapital_of_isLower {p : CodePoint} (h : p.isIn Char.isLower = true) :
    isCapital p = false := by
  obtain ⟨c, rfl, hc⟩ := exists_char_of_isIn h
  exact (smallLetter_of_isLower hc).not_upper

theorem lowerPoint_of_isAlphanum {c : Char} (h : c.isAlphanum = true) (before after : Text) :
    lowerPoint before (.char c) after = [.char c.toLower] := by
  simp [lowerPoint, lowerChar, toNat_lt_of_isAlphanum h, ofChars]

/-- A text of small letters stays as it is in lower case, whatever is in front of it. -/
theorem lowerAfter_of_lower {text : Text} (h : AllOf (·.isIn Char.isLower) text)
    (before : Text) : lowerAfter before text = text := by
  induction text generalizing before with
  | nil => rfl
  | cons p rest ih =>
      obtain ⟨hp, hrest⟩ := List.forall_mem_cons.mp h
      obtain ⟨c, rfl, hc⟩ := exists_char_of_isIn hp
      have hself : c.toLower = c := (smallLetter_of_isLower hc).lower
      rw [lowerAfter, lowerPoint_of_isAlphanum (isAlphanum_of_isLower hc), hself, ih hrest,
        List.singleton_append]

namespace LowerWord

variable {word : Text}

theorem alphanumeric (h : LowerWord word) : Alphanumeric word := by
  intro p hp
  obtain ⟨c, rfl, hc⟩ := exists_char_of_isIn (h.lower p hp)
  exact isAlphanum_of_isLower hc

theorem lower_eq (h : LowerWord word) : Text.lower word = word :=
  lowerAfter_of_lower h.lower []

/-- With a capital, a word has no other capital behind it, and in lower case it is itself again. -/
theorem exists_capital (h : LowerWord word) :
    ∃ capital rest, upperFirst word = capital :: rest ∧ isCapital capital = true ∧
      (∀ c ∈ rest, isCapital c = false) ∧ Text.lower (capital :: rest) = word := by
  obtain ⟨hne, hlower⟩ := h
  cases word with
  | nil => exact absurd rfl hne
  | cons p rest =>
      obtain ⟨hp, hrest⟩ := List.forall_mem_cons.mp hlower
      obtain ⟨c, rfl, hc⟩ := exists_char_of_isIn hp
      have halphanum := isAlphanum_of_isLower hc
      have hsmall := smallLetter_of_isLower hc
      have hupper : c.toUpper.isAlphanum = true := isAlphanum_toUpper halphanum
      refine ⟨_, rest, upperFirst_cons_of_isAlphanum halphanum rest, hsmall.upper,
        fun d hd => isCapital_of_isLower (hrest d hd), ?_⟩
      rw [Text.lower, lowerAfter, lowerPoint_of_isAlphanum hupper, hsmall.back,
        lowerAfter_of_lower hrest, List.singleton_append]

end LowerWord

end TableGateway.Text
