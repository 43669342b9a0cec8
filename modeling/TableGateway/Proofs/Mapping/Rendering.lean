import TableGateway.Proofs.Mapping.Filling
import TableGateway.Proofs.Velocity.Syntax

/-! # Rendering templates

A deployed template is a mapping program: its fixed text is read as one, and the values that were
put into its slots stand in it as text. -/

namespace TableGateway.Mapping

open Velocity

/-- Whether the text of a segment has no marks. -/
def Segment.Quiet : Segment → Prop
  | .text content => Velocity.Quiet content
  | .slot _ => True

instance : DecidablePred Segment.Quiet
  | .text content => inferInstanceAs (Decidable (Velocity.Quiet content))
  | .slot _ => inferInstanceAs (Decidable True)

section Tokens

variable (values : List (Text × Json))

/-- The tokens of a segment; the value of a slot is text whatever it holds. -/
def Segment.tokens? : Segment → Option (List Token)
  | .text content => some (lex content)
  | .slot name => ((Segment.slot name).fill? values).map prints

/-- The tokens of segments. -/
def tokens? (segments : List Segment) : Option (List Token) :=
  gather? (Segment.tokens? values) segments

@[simp] theorem tokens?_nil : tokens? values [] = some [] := rfl

/-- What a template prints for a request body, once its values are put in. -/
def render? (text body : Text) : Option Text := do
  let tokens ← tokens? values (pieces text)
  let program ← parse? tokens
  return (program.run (Scope.request body)).1

theorem tokens?_cons (segment : Segment) (rest : List Segment) :
    tokens? values (segment :: rest) =
      (segment.tokens? values).bind fun front => (tokens? values rest).map (front ++ ·) :=
  gather?_cons ..

theorem tokens?_text_cons (content : Text) (rest : List Segment) :
    tokens? values (.text content :: rest) = (tokens? values rest).map (lex content ++ ·) := by
  rw [tokens?_cons]
  rfl

/-- Fixed text comes apart where its tokens do, if no more text follows. -/
theorem tokens?_joined_of_lex {own content : Text} {front : List Token}
    (h : lex (own ++ content) = front ++ lex content) {segments : List Segment}
    (hs : ∀ segment ∈ segments.head?, segment.slot? ≠ none) :
    tokens? values (joined (own ++ content) segments) =
      (tokens? values (joined content segments)).map (front ++ ·) := by
  cases segments with
  | nil => simp [joined, tokens?_text_cons, h]
  | cons segment segments =>
      cases segment with
      | text more => exact absurd rfl (hs _ rfl)
      | slot name =>
          rw [joined, joined, tokens?_text_cons, tokens?_text_cons, h]
          simp [Function.comp_def]

theorem tokens?_joined_quiet {own : Text} (h : Velocity.Quiet own) (content : Text)
    (segments : List Segment) :
    tokens? values (joined (own ++ content) segments) =
      (tokens? values (joined content segments)).map (prints own ++ ·) := by
  induction segments generalizing content with
  | nil => exact tokens?_joined_of_lex values (lex_quiet_append h content) (by simp)
  | cons segment segments ih =>
      cases segment with
      | text more => rw [joined, joined, List.append_assoc, ih]
      | slot name =>
          exact tokens?_joined_of_lex values (lex_quiet_append h content) (by simp [Segment.slot?])

variable {values}

/-- Segments without marks print themselves, whatever follows. -/
theorem tokens?_joined_front {front : List Segment} (hq : ∀ segment ∈ front, segment.Quiet)
    {text : Text} (hf : fillAll? values front = some text) (rest : List Segment) :
    tokens? values (joined [] (front ++ rest)) =
      (tokens? values (joined [] rest)).map (prints text ++ ·) := by
  induction front generalizing text with
  | nil =>
      obtain rfl : [] = text := Option.some.inj hf
      simp [prints]
  | cons segment front ih =>
      obtain ⟨hsegment, hfront⟩ := List.forall_mem_cons.mp hq
      rw [fillAll?_cons, Option.bind_eq_some_iff] at hf
      obtain ⟨own, hown, hmap⟩ := hf
      obtain ⟨others, hrest, rfl⟩ := Option.map_eq_some_iff.mp hmap
      cases segment with
      | text content =>
          obtain rfl : content = own := Option.some.inj hown
          have happend := tokens?_joined_quiet values hsegment [] (front ++ rest)
          rw [List.append_nil] at happend
          rw [List.cons_append, joined, List.nil_append, happend, ih hfront hrest]
          simp [prints, Function.comp_def]
      | slot name =>
          rw [List.cons_append, joined, tokens?_text_cons, tokens?_cons, ih hfront hrest,
            Segment.tokens?, hown]
          simp [lex, lexFrom, prints, Function.comp_def]

theorem tokens?_joined_fill {segments : List Segment} (hq : ∀ segment ∈ segments, segment.Quiet)
    {text : Text} (hf : fillAll? values segments = some text) :
    tokens? values (joined [] segments) = some (prints text) := by
  have hfront := tokens?_joined_front hq hf []
  rw [List.append_nil] at hfront
  rw [hfront]
  simp [joined, tokens?_text_cons, lex, lexFrom]

/-- A template whose only marks are those of one program runs that program between the texts on its
two sides. -/
theorem render?_of_program {front back : List Segment} {content tail before behind : Text}
    {program : Program} (hclosed : ∀ segment ∈ front ++ .text content :: .text tail :: back,
      segment.Closed)
    (hfront : ∀ segment ∈ front, segment.Quiet)
    (hback : ∀ segment ∈ .text tail :: back, segment.Quiet)
    (hslot : ∀ segment ∈ back.head?, segment.slot? ≠ none)
    (hlex : lex (content ++ tail) = program.tokens ++ lex tail)
    (hbefore : fillAll? values front = some before)
    (hbehind : fillAll? values (.text tail :: back) = some behind) (body : Text) :
    render? values ((front ++ .text content :: .text tail :: back).flatMap Segment.written) body =
      some (before ++ (program.run (Scope.request body)).1 ++ behind) := by
  -- The program's text and the text behind it are one piece of the deployed template.
  have hjoined : joined [] (.text content :: .text tail :: back) = joined (content ++ tail) back :=
    rfl
  have hend : joined tail back = joined [] (.text tail :: back) := rfl
  have htokens : tokens? values
      (pieces ((front ++ .text content :: .text tail :: back).flatMap Segment.written)) =
        some (Program.printing before (program.append (.printing behind .done))).tokens := by
    rw [pieces, cut_written hclosed, tokens?_joined_front hfront hbefore, hjoined,
      tokens?_joined_of_lex values hlex hslot, hend, tokens?_joined_fill hback hbehind,
      tokens_printing, tokens_append, tokens_printing]
    simp [Program.tokens]
  rw [render?, htokens]
  simp [parse?_tokens, Program.run_printing, Program.run_append, Program.run]

end Tokens

end TableGateway.Mapping
