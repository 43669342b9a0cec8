import Mathlib.Data.List.TakeWhile
import TableGateway.Text.Basic

/-! # Laws of trimming

Trimming leaves the text between what it takes off, and that text neither starts nor ends with the
class that is trimmed. -/

namespace TableGateway.Text


variable {drop : CodePoint → Bool}

/-- Whether a text neither starts nor ends with a code point of a class. -/
structure Trimmed (drop : CodePoint → Bool) (text : Text) : Prop where
  head : ∀ c, text.head? = some c → drop c = false
  last : ∀ c, text.getLast? = some c → drop c = false

/-- Whether all code points of a text are of a class. -/
def AllOf (drop : CodePoint → Bool) (text : Text) : Prop := ∀ c ∈ text, drop c = true

theorem dropWhile_of_head {text : Text} (h : ∀ c, text.head? = some c → drop c = false) :
    text.dropWhile drop = text := by
  cases text with
  | nil => rfl
  | cons c rest => exact List.dropWhile_cons_of_neg (by simp [h c rfl])

theorem Trimmed.trim_eq {text : Text} (h : Trimmed drop text) : trim drop text = text := by
  have hlast : ∀ c, text.reverse.head? = some c → drop c = false := by
    intro c hc
    rw [List.head?_reverse] at hc
    exact h.last c hc
  rw [trim, dropWhile_of_head h.head, dropWhile_of_head hlast, List.reverse_reverse]

theorem exists_trim (drop : CodePoint → Bool) (text : Text) :
    ∃ front back, AllOf drop front ∧ AllOf drop back ∧ text = front ++ trim drop text ++ back := by
  refine ⟨text.takeWhile drop, ((text.dropWhile drop).reverse.takeWhile drop).reverse, ?_, ?_, ?_⟩
  · intro c hc
    exact List.mem_takeWhile_imp hc
  · intro c hc
    exact List.mem_takeWhile_imp (List.mem_reverse.mp hc)
  · rw [trim, List.append_assoc, ← List.reverse_append, List.takeWhile_append_dropWhile,
      List.reverse_reverse, List.takeWhile_append_dropWhile]

theorem eq_false_of_head?_dropWhile {text : Text} {c : CodePoint}
    (h : (text.dropWhile drop).head? = some c) : drop c = false := by
  have hhead := List.head?_dropWhile_not drop text
  rwa [h] at hhead

theorem trimmed_trim (drop : CodePoint → Bool) (text : Text) : Trimmed drop (trim drop text) := by
  have hfront : text.dropWhile drop = trim drop text ++
      ((text.dropWhile drop).reverse.takeWhile drop).reverse := by
    rw [trim, ← List.reverse_append, List.takeWhile_append_dropWhile, List.reverse_reverse]
  constructor
  · intro c hc
    have hhead : (text.dropWhile drop).head? = some c := by
      rw [hfront, List.head?_append, hc, Option.some_or]
    exact eq_false_of_head?_dropWhile hhead
  · intro c hc
    rw [trim, List.getLast?_reverse] at hc
    exact eq_false_of_head?_dropWhile hc

/-- What surrounds a text makes no difference. -/
theorem trim_append {front back : Text} (hf : AllOf drop front) (hb : AllOf drop back)
    (inner : Text) : trim drop (front ++ inner ++ back) = trim drop inner := by
  rw [trim, trim, List.append_assoc, List.dropWhile_append_of_pos hf, List.dropWhile_append]
  split
  next hempty =>
    rw [List.isEmpty_iff.mp hempty, List.dropWhile_eq_nil_iff.mpr hb]
  next =>
    have hback : ∀ c ∈ back.reverse, drop c = true := fun c hc => hb c (List.mem_reverse.mp hc)
    rw [List.reverse_append, List.dropWhile_append_of_pos hback]

/-- Trimming leaves the text that neither starts nor ends with the class, between what does. -/
theorem trim_eq_of_surrounded {front inner back : Text} (hf : AllOf drop front)
    (hi : Trimmed drop inner) (hb : AllOf drop back) : trim drop (front ++ inner ++ back) = inner :=
  (trim_append hf hb inner).trans hi.trim_eq

/-- Trimming leaves nothing exactly when everything is dropped. -/
theorem trim_eq_nil_iff {text : Text} :
    trim drop text = [] ↔ ∀ c ∈ text, drop c = true := by
  constructor
  · intro h
    obtain ⟨front, back, hf, hb, htext⟩ := exists_trim drop text
    rw [htext, h, List.append_nil]
    exact List.forall_mem_append.mpr ⟨hf, hb⟩
  · intro h
    have hnil : Trimmed drop [] := ⟨nofun, nofun⟩
    have hall := trim_eq_of_surrounded h hnil (show AllOf drop [] from nofun)
    simpa using hall

theorem trim_subset (drop : CodePoint → Bool) (text : Text) : trim drop text ⊆ text := by
  intro c hc
  obtain ⟨front, back, -, -, htext⟩ := exists_trim drop text
  rw [htext]
  exact List.mem_append_left back (List.mem_append_right front hc)

end TableGateway.Text
