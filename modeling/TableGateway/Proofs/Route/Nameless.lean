import TableGateway.Proofs.Text.Letters
import TableGateway.Proofs.Text.Parts
import TableGateway.Route

/-! # Parts without a name

What is left of a part in its name: nothing exactly when it has no letter or digit, no dash and no
variable, which is an opening brace with a closing brace behind it on the same line. -/

namespace TableGateway.Route

/-- Whether no code point of a text is an ASCII letter or digit. -/
def Letterless (text : Text) : Prop := ∀ c ∈ text, c.isIn Char.isAlphanum = false

/-- Whether an opening brace of a line has a closing brace behind it. -/
def HasVariable (line : Text) : Prop := List.Sublist [.char '{', .char '}'] line

/-- Whether a part holds nothing that a name is made of. -/
structure Nameless (part : Text) : Prop where
  letterless : Letterless part
  noDash : (.char '-') ∉ part
  noVariable : ∀ line ∈ Text.split '\n' part, ¬ HasVariable line

/-! ## Letters -/

theorem letterless_append {front back : Text} :
    Letterless (front ++ back) ↔ Letterless front ∧ Letterless back :=
  List.forall_mem_append

theorem filter_isAlphanum_eq_nil_iff {text : Text} :
    text.filter (·.isIn Char.isAlphanum) = [] ↔ Letterless text := by
  simp [Letterless]

/-- A part is left without a name when marking leaves no letter or digit on any of its lines. -/
theorem partName_eq_nil_iff_letterless {part : Text} :
    partName part = [] ↔
      ∀ line ∈ Text.split '\n' (spellDashes part), Letterless (markVariable line) := by
  rw [partName, Text.upperFirst_eq_nil_iff (Text.alphanumeric_filter _),
    filter_isAlphanum_eq_nil_iff]
  simp only [Letterless, List.mem_flatMap]
  constructor
  · exact fun h line hl c hc => h c ⟨line, hl, hc⟩
  · rintro h c ⟨line, hl, hc⟩
    exact h line hl c hc

/-! ## Dashes -/

theorem spellDashes_of_not_mem {part : Text} (h : (.char '-') ∉ part) : spellDashes part = part := by
  induction part with
  | nil => rfl
  | cons c rest ih =>
      simp only [List.mem_cons, not_or] at h
      have hrest : spellDashes (c :: rest) = c :: spellDashes rest := by
        simp [spellDashes, Ne.symm h.1]
      rw [hrest, ih h.2]

/-- A dash is spelled with letters. -/
theorem not_letterless_spellDashes {part : Text} (h : (.char '-') ∈ part) :
    ¬ Letterless (spellDashes part) := by
  intro hl
  have hm : (.char 'D') ∈ spellDashes part :=
    List.mem_flatMap.mpr ⟨.char '-', h, by decide⟩
  exact absurd (hl _ hm) (by decide)

/-! ## Variables -/

theorem not_hasVariable_of_not_mem {line : Text} (h : (.char '{') ∉ line) : ¬ HasVariable line :=
  fun hv => h (hv.subset (by simp))

/-- Of a line with a first opening brace, what is behind the brace decides. -/
theorem hasVariable_iff_mem {before inner : Text} (h : (.char '{') ∉ before) :
    HasVariable (before ++ .char '{' :: inner) ↔ (.char '}') ∈ inner := by
  unfold HasVariable
  constructor
  · intro hv
    obtain ⟨front, back, he, hf, hb⟩ := List.sublist_append_iff.mp hv
    cases front with
    | nil =>
        rw [List.nil_append] at he
        rw [← he, List.cons_sublist_cons] at hb
        exact List.singleton_sublist.mp hb
    | cons c rest =>
        obtain rfl := (List.cons.inj he).1
        exact absurd (hf.subset List.mem_cons_self) h
  · intro hm
    exact ((List.singleton_sublist.mpr hm).cons_cons _).trans (List.sublist_append_right _ _)

/-- Marking brings letters to a line that has a variable, and takes none from any line. -/
theorem letterless_markVariable_iff {line : Text} :
    Letterless (markVariable line) ↔ Letterless line ∧ ¬ HasVariable line := by
  have hline := Text.before_append_fromFirst (.char '{') line
  unfold markVariable
  cases ho : Text.fromFirst (.char '{') line with
  | nil =>
      have hv := not_hasVariable_of_not_mem (Text.fromFirst_eq_nil_iff.mp ho)
      simp [hv]
  | cons c inner =>
      obtain rfl := Text.eq_of_fromFirst_eq_cons ho
      rw [ho] at hline
      have hv : HasVariable line ↔ (.char '}') ∈ inner := by
        rw [← hline]
        exact hasVariable_iff_mem (Text.not_mem_before _ _)
      cases hc : Text.fromFirst (.char '}') inner.reverse with
      | nil =>
          have hm : (.char '}') ∉ inner := by
            simpa using Text.fromFirst_eq_nil_iff.mp hc
          simp [hc, hv, hm]
      | cons d body =>
          have hm : (.char '}') ∈ inner := by
            by_contra hn
            have hnil : Text.fromFirst (.char '}') inner.reverse = [] :=
              Text.fromFirst_eq_nil_iff.mpr (by simpa using hn)
            rw [hnil] at hc
            cases hc
          simp only [hc, letterless_append, hv, hm, not_true_eq_false, and_false, iff_false]
          rintro ⟨⟨-, hword⟩, -⟩
          exact absurd (hword (.char 'V') (by decide)) (by decide)

/-! ## Parts -/

/-- A part has no name exactly when it holds nothing that a name is made of. -/
theorem partName_eq_nil_iff {part : Text} : partName part = [] ↔ Nameless part := by
  rw [partName_eq_nil_iff_letterless]
  simp only [letterless_markVariable_iff]
  constructor
  · intro h
    have hspelled : Letterless (spellDashes part) := by
      intro c hc
      by_cases hn : c = .char '\n'
      · subst hn
        decide
      · obtain ⟨line, hl, hm⟩ := Text.exists_mem_split hc hn
        exact (h line hl).1 c hm
    have hdash : (.char '-') ∉ part := fun hm => not_letterless_spellDashes hm hspelled
    rw [spellDashes_of_not_mem hdash] at h hspelled
    exact ⟨hspelled, hdash, fun line hl => (h line hl).2⟩
  · intro h line hl
    rw [spellDashes_of_not_mem h.noDash] at hl
    exact ⟨fun c hc => h.letterless c (Text.mem_of_mem_split hl hc), h.noVariable line hl⟩

end TableGateway.Route
