import Mathlib.Data.List.TakeWhile
import TableGateway.Proofs.Text.Trim
import TableGateway.Text.Split

/-! # Laws of cutting

A text is cut apart at a separator in the same way whether it is taken whole or in two halves. The
parts of a path, and joining parts back to a path, follow from that. -/

namespace TableGateway.Text

variable {separator : CodePoint}

/-! ## Splitting -/

/-- Adding a code point other than the separator makes the first piece longer. -/
theorem split_cons_of_ne {c : CodePoint} (h : c ≠ separator) {text piece : Text}
    {pieces : List Text} (hs : split separator text = piece :: pieces) :
    split separator (c :: text) = (c :: piece) :: pieces := by
  simp [split, h, hs]

/-- A separator between two texts is a cut between their pieces. -/
theorem split_append_cons (front back : Text) :
    split separator (front ++ separator :: back) =
      split separator front ++ split separator back := by
  induction front with
  | nil => simp [split]
  | cons c rest ih =>
      by_cases h : c = separator
      · simp [split, h, ih]
      · cases hs : split separator rest with
        | nil => exact absurd hs (split_ne_nil separator rest)
        | cons piece pieces =>
            rw [hs] at ih
            rw [split_cons_of_ne h hs, List.cons_append, split_cons_of_ne h ih]
            rfl

theorem not_mem_of_mem_split {text piece : Text} (h : piece ∈ split separator text) :
    separator ∉ piece := by
  induction text generalizing piece with
  | nil =>
      obtain rfl : piece = [] := by simpa [split] using h
      simp
  | cons c rest ih =>
      by_cases hc : c = separator
      · simp only [split, hc, if_true, List.mem_cons] at h
        rcases h with rfl | h
        · simp
        · exact ih h
      · cases hs : split separator rest with
        | nil => exact absurd hs (split_ne_nil separator rest)
        | cons first pieces =>
            rw [split_cons_of_ne hc hs, List.mem_cons] at h
            rcases h with rfl | h
            · have hf : separator ∉ first := ih (by simp [hs])
              simp [Ne.symm hc, hf]
            · exact ih (by simp [hs, h])

theorem split_of_not_mem {text : Text} (h : separator ∉ text) : split separator text = [text] := by
  induction text with
  | nil => rfl
  | cons c rest ih =>
      simp only [List.mem_cons, not_or] at h
      exact split_cons_of_ne (Ne.symm h.1) (ih h.2)

theorem mem_of_mem_split {text piece : Text} (h : piece ∈ split separator text) {c : CodePoint}
    (hc : c ∈ piece) : c ∈ text := by
  induction text generalizing piece with
  | nil =>
      obtain rfl : piece = [] := by simpa [split] using h
      exact absurd hc List.not_mem_nil
  | cons first rest ih =>
      by_cases hf : first = separator
      · simp only [split, hf, if_true, List.mem_cons] at h
        rcases h with rfl | h
        · exact absurd hc List.not_mem_nil
        · exact List.mem_cons_of_mem first (ih h hc)
      · cases hs : split separator rest with
        | nil => exact absurd hs (split_ne_nil separator rest)
        | cons head pieces =>
            rw [split_cons_of_ne hf hs, List.mem_cons] at h
            rcases h with rfl | h
            · rcases List.mem_cons.mp hc with rfl | hc
              · exact List.mem_cons_self
              · exact List.mem_cons_of_mem first (ih (by simp [hs]) hc)
            · exact List.mem_cons_of_mem first (ih (by simp [hs, h]) hc)

/-- Every code point but the separator is on one of the pieces. -/
theorem exists_mem_split {text : Text} {c : CodePoint} (h : c ∈ text) (hne : c ≠ separator) :
    ∃ piece ∈ split separator text, c ∈ piece := by
  induction text with
  | nil => exact absurd h List.not_mem_nil
  | cons first rest ih =>
      by_cases hf : first = separator
      · rcases List.mem_cons.mp h with rfl | h
        · exact absurd hf hne
        · obtain ⟨piece, hp, hc⟩ := ih h
          exact ⟨piece, by simp [split, hf, hp], hc⟩
      · cases hs : split separator rest with
        | nil => exact absurd hs (split_ne_nil separator rest)
        | cons head pieces =>
            rw [split_cons_of_ne hf hs]
            rcases List.mem_cons.mp h with rfl | h
            · exact ⟨c :: head, by simp, by simp⟩
            · obtain ⟨piece, hp, hc⟩ := ih h
              rw [hs, List.mem_cons] at hp
              rcases hp with rfl | hp
              · exact ⟨first :: piece, by simp, by simp [hc]⟩
              · exact ⟨piece, by simp [hp], hc⟩

/-! ## Cutting once -/

theorem not_mem_before (stop : CodePoint) (text : Text) : stop ∉ before stop text := by
  intro h
  simpa using List.mem_takeWhile_imp h

theorem fromFirst_eq_nil_iff {stop : CodePoint} {text : Text} :
    fromFirst stop text = [] ↔ stop ∉ text := by
  simp only [fromFirst, List.dropWhile_eq_nil_iff, bne_iff_ne]
  constructor
  · intro h hm
    exact h stop hm rfl
  · rintro h c hc rfl
    exact h hc

/-- What is cut off starts with the stop. -/
theorem eq_of_fromFirst_eq_cons {stop c : CodePoint} {text rest : Text}
    (h : fromFirst stop text = c :: rest) : c = stop := by
  have hhead := List.head?_dropWhile_not (· != stop) text
  unfold fromFirst at h
  simpa [h] using hhead

/-! ## The parts of a path -/

/-- Whether texts can be the parts of a path: none is empty and none holds a slash. -/
def AreParts (pieces : List Text) : Prop := ∀ piece ∈ pieces, piece ≠ [] ∧ (.char '/') ∉ piece

theorem areParts_parts (path : Text) : AreParts (parts path) := by
  intro piece h
  obtain ⟨hm, hne⟩ := List.mem_filter.mp h
  exact ⟨by simpa using hne, not_mem_of_mem_split hm⟩

theorem AreParts.left {front back : List Text} (h : AreParts (front ++ back)) : AreParts front :=
  fun piece hp => h piece (List.mem_append_left back hp)

@[simp] theorem parts_nil : parts [] = [] := rfl

/-- The parts of two paths with a slash between them are those of the one and of the other. -/
theorem parts_append_slash (front back : Text) :
    parts (front ++ .char '/' :: back) = parts front ++ parts back := by
  unfold parts
  rw [split_append_cons, List.filter_append]

theorem parts_of_not_mem {text : Text} (hne : text ≠ []) (h : (.char '/') ∉ text) :
    parts text = [text] := by
  unfold parts
  rw [split_of_not_mem h]
  simp [hne]

/-- Joining parts and cutting the path again gives the parts back. -/
theorem parts_join {pieces : List Text} (h : AreParts pieces) :
    parts (join '/' pieces) = pieces := by
  induction pieces with
  | nil => rfl
  | cons piece rest ih =>
      have hp := h piece (by simp)
      have hrest : AreParts rest := fun q hq => h q (by simp [hq])
      cases rest with
      | nil => exact parts_of_not_mem hp.1 hp.2
      | cons next more =>
          have hj : join '/' (piece :: next :: more) = piece ++ .char '/' :: join '/' (next :: more) :=
            rfl
          rw [hj, parts_append_slash, parts_of_not_mem hp.1 hp.2, ih hrest]
          rfl

/-- A path has no parts exactly when it is made of slashes. -/
theorem parts_eq_nil_iff {path : Text} : parts path = [] ↔ ∀ c ∈ path, c = .char '/' := by
  induction path with
  | nil => simp
  | cons c rest ih =>
      by_cases h : c = .char '/'
      · have hs := parts_append_slash [] rest
        simp only [List.nil_append, parts_nil] at hs
        rw [h, hs, ih]
        simp
      · cases hs : split (.char '/') rest with
        | nil => exact absurd hs (split_ne_nil _ rest)
        | cons piece pieces =>
            have hc := split_cons_of_ne h hs
            simp [parts, hc, h]

/-- The two ways to tell a path without parts agree. -/
theorem trimSlashes_eq_nil_iff {path : Text} : trimSlashes path = [] ↔ parts path = [] := by
  rw [parts_eq_nil_iff, trimSlashes, trim_eq_nil_iff]
  simp

end TableGateway.Text
