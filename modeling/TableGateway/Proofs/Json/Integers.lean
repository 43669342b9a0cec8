import Mathlib.Data.List.TakeWhile
import TableGateway.Proofs.Json.Escapes

/-! # Integers that were written

An integer is read as far as its digits go, so only where something stands behind it that a number
does not go on with. -/

namespace TableGateway.Json

open Text (ofChars)

/-! ## The end of a number -/

/-- Whether a text can stand behind a value that is written: it is empty, or it starts with a comma,
a bracket or a brace that closes. A number ends there. -/
def Ends (rest : Text) : Prop :=
  ∀ c, rest.head? = some c → c = .char ',' ∨ c = .char ']' ∨ c = .char '}'

theorem ends_nil : Ends [] := nofun

theorem ends_cons {c : CodePoint} (h : c = .char ',' ∨ c = .char ']' ∨ c = .char '}')
    (rest : Text) : Ends (c :: rest) := by
  intro d hd
  obtain rfl := Option.some.inj hd
  exact h

theorem Ends.skipGap_eq {rest : Text} (h : Ends rest) : skipGap rest = rest := by
  cases rest with
  | nil => rfl
  | cons c rest => rcases h c rfl with rfl | rfl | rfl <;> rfl

theorem Ends.isDigit_head {c : CodePoint} {rest : Text} (h : Ends (c :: rest)) :
    isDigit c = false := by
  rcases h c rfl with rfl | rfl | rfl <;> decide

theorem Ends.readFraction_eq {rest : Text} (h : Ends rest) : readFraction rest = ([], rest) := by
  cases rest with
  | nil => rfl
  | cons c rest => rcases h c rfl with rfl | rfl | rfl <;> rfl

theorem Ends.readExponent_eq {rest : Text} (h : Ends rest) : readExponent rest = (none, rest) := by
  cases rest with
  | nil => rfl
  | cons c rest => rcases h c rfl with rfl | rfl | rfl <;> rfl

theorem Ends.takeWhile_digits {digits rest : Text} (h : Ends rest)
    (hd : ∀ p ∈ digits, isDigit p = true) : (digits ++ rest).takeWhile isDigit = digits := by
  rw [List.takeWhile_append_of_pos hd]
  cases rest with
  | nil => simp
  | cons c rest => simp [h.isDigit_head]

theorem Ends.dropWhile_digits {digits rest : Text} (h : Ends rest)
    (hd : ∀ p ∈ digits, isDigit p = true) : (digits ++ rest).dropWhile isDigit = rest := by
  rw [List.dropWhile_append_of_pos hd]
  cases rest with
  | nil => rfl
  | cons c rest => exact List.dropWhile_cons_of_neg (by simp [h.isDigit_head])

/-! ## Digits -/

/-- The decimal digits of a number. -/
def digits (n : Nat) : Text := ofChars (Nat.toDigits 10 n)

theorem isDigit_of_mem_digits {n : Nat} {p : CodePoint} (h : p ∈ digits n) : isDigit p = true := by
  obtain ⟨c, hc, rfl⟩ := List.mem_map.mp h
  exact Nat.isDigit_of_mem_toDigits (by decide) (by decide) hc

theorem digitsValue_digits (n : Nat) : digitsValue (digits n) = n := by
  have hchars : (digits n).map CodePoint.toChar = Nat.toDigits 10 n := by
    rw [digits, ofChars, List.map_map]
    exact List.map_id _
  rw [digitsValue, hchars, Nat.ofDigitChars_ten_toDigits]

theorem exists_digits_eq_cons (n : Nat) :
    ∃ c rest, digits n = .char c :: rest ∧ c.isDigit = true := by
  cases h : Nat.toDigits 10 n with
  | nil => exact absurd h Nat.toDigits_ne_nil
  | cons c cs =>
      refine ⟨c, ofChars cs, by rw [digits, h, Text.ofChars_cons], ?_⟩
      exact Nat.isDigit_of_mem_toDigits (by decide) (by decide) (h ▸ List.mem_cons_self)

/-- Only zero starts with a zero. -/
theorem head_digits_ne_zero {n : Nat} (h : n ≠ 0) (rest : Text) : digits n ≠ .char '0' :: rest := by
  induction n using Nat.strongRecOn generalizing rest with
  | ind n ih =>
      intro he
      by_cases hlt : n < 10
      · have hd : ∀ d < 10, d ≠ 0 → Nat.digitChar d ≠ '0' := by decide
        rw [digits, Nat.toDigits_of_lt_base hlt] at he
        exact hd n hlt h (CodePoint.char.inj (List.cons.inj he).1)
      · have hdiv : n / 10 ≠ 0 := by omega
        obtain ⟨c, more, hc, -⟩ := exists_digits_eq_cons (n / 10)
        rw [digits, Nat.toDigits_of_base_le (by decide) (Nat.not_lt.mp hlt), Text.ofChars_append]
          at he
        change digits (n / 10) ++ _ = _ at he
        rw [hc, List.cons_append] at he
        apply ih (n / 10) (by omega) hdiv more
        rw [hc, (List.cons.inj he).1]

/-- A number that is not too long is read as far as its digits go. -/
theorem readMagnitude_digits {n : Nat} (h : (Nat.toDigits 10 n).length ≤ digitLimit)
    (negative : Bool) {rest : Text} (hrest : Ends rest) :
    readMagnitude negative (digits n ++ rest) =
      .ok (.int (if negative then -(n : Int) else n), rest) := by
  have hlength : ¬ digitLimit < (digits n).length := by
    rw [digits, ofChars, List.length_map]
    omega
  have hempty : (digits n).isEmpty = false := by
    obtain ⟨c, more, hc, -⟩ := exists_digits_eq_cons n
    rw [hc]
    rfl
  unfold readMagnitude
  split
  next whole more hsplit =>
    -- The whole part is a lone zero or all digits.
    have hwhole : whole = digits n ∧ more = rest := by
      split at hsplit
      next tail he =>
        obtain ⟨rfl, rfl⟩ := Prod.mk.inj hsplit
        by_cases hzero : n = 0
        · subst hzero
          exact ⟨rfl, (List.cons.inj he).2.symm⟩
        · obtain ⟨c, others, hc, -⟩ := exists_digits_eq_cons n
          rw [hc, List.cons_append] at he
          rw [(List.cons.inj he).1] at hc
          exact absurd hc (head_digits_ne_zero hzero others)
      next =>
        rw [hrest.takeWhile_digits fun p => isDigit_of_mem_digits,
          hrest.dropWhile_digits fun p => isDigit_of_mem_digits] at hsplit
        obtain ⟨rfl, rfl⟩ := Prod.mk.inj hsplit
        exact ⟨rfl, rfl⟩
    obtain ⟨rfl, rfl⟩ := hwhole
    simp [hempty, hrest.readFraction_eq, hrest.readExponent_eq, hlength, digitsValue_digits]

theorem after?_of_head_ne {first c : CodePoint} {word text : Text} (h : c ≠ first) :
    Text.after? (first :: word) (c :: text) = none := by
  rw [Text.after?, if_neg]
  intro hp
  exact h (List.cons_prefix_cons.mp hp).1.symm

theorem readUnsigned_digits {n : Nat} (h : (Nat.toDigits 10 n).length ≤ digitLimit)
    (negative : Bool) {rest : Text} (hrest : Ends rest) :
    readUnsigned negative (digits n ++ rest) =
      .ok (.int (if negative then -(n : Int) else n), rest) := by
  have hword : Text.after? "Infinity" (digits n ++ rest) = none := by
    obtain ⟨c, more, hc, hd⟩ := exists_digits_eq_cons n
    rw [hc, List.cons_append]
    apply after?_of_head_ne
    rintro he
    rw [CodePoint.char.inj he] at hd
    exact absurd hd (by decide)
  rw [readUnsigned, hword]
  exact readMagnitude_digits h negative hrest

theorem readNumber_intText {n : Int} (h : (Nat.toDigits 10 n.natAbs).length ≤ digitLimit)
    {rest : Text} (hrest : Ends rest) :
    readNumber (ofChars (intText n) ++ rest) = .ok (.int n, rest) := by
  unfold intText
  split
  next hneg =>
    have hread := readUnsigned_digits h true hrest
    have hvalue : -(n.natAbs : Int) = n := by omega
    rw [if_pos rfl, hvalue] at hread
    exact hread
  next hpos =>
    have hread := readUnsigned_digits h false hrest
    have hvalue : (n.natAbs : Int) = n := by omega
    rw [if_neg (by decide), hvalue] at hread
    rw [readNumber]
    · exact hread
    · intro more he
      obtain ⟨c, tail, hc, hd⟩ := exists_digits_eq_cons n.natAbs
      change digits n.natAbs ++ rest = _ at he
      rw [hc, List.cons_append] at he
      rw [CodePoint.char.inj (List.cons.inj he).1] at hd
      exact absurd hd (by decide)

end TableGateway.Json
