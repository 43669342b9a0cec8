import Mathlib.Data.List.Chain
import TableGateway.Mapping.Request
import TableGateway.Proofs.Entries

/-! # Filling templates

What the deployment service makes of a template in its written form: one pass from left to right
finds the slots and puts in the value of each name. Values are not read again, so whatever they hold
stays as it is. -/

namespace TableGateway.Mapping

/-! ## Cutting -/

/-- Cuts a text at its slots; the segment is the one that is being read. A slot without a closing
brace is fixed text. -/
def cut : Segment → Text → List Segment
  | .text own, [] => [.text own]
  | .text own, .char '$' :: .char '{' :: rest => .text own :: cut (.slot []) rest
  | .text own, c :: rest => cut (.text (own ++ [c])) rest
  | .slot name, [] => [.text ("$\x7b" ++ name)]
  | .slot name, .char '}' :: rest => .slot name :: cut (.text []) rest
  | .slot name, c :: rest => cut (.slot (name ++ [c])) rest

/-- The fixed text and the slots of a text. -/
def pieces (text : Text) : List Segment := cut (.text []) text

/-- The name of a slot. -/
def Segment.slot? : Segment → Option Text
  | .text _ => none
  | .slot name => some name

/-- The names of the slots among segments, in order. -/
def slots (segments : List Segment) : List Text := segments.filterMap Segment.slot?

/-- The names of the slots of a text, in order. -/
def placeholders (text : Text) : List Text := slots (pieces text)

/-- Segments with neighbouring fixed texts joined, behind the fixed text `own`. -/
def joined : Text → List Segment → List Segment
  | own, [] => [.text own]
  | own, .text content :: rest => joined (own ++ content) rest
  | own, .slot name :: rest => .text own :: .slot name :: joined [] rest

/-- Whether a segment is read back from its written form wherever it stands: its text opens no slot,
not even together with what follows, and its name closes none. -/
def Segment.Closed : Segment → Prop
  | .text content =>
      content.IsChain (fun c next => ¬ (c = .char '$' ∧ next = .char '{')) ∧
        content.getLast? ≠ some (.char '$')
  | .slot name => .char '}' ∉ name

instance : DecidablePred Segment.Closed
  | .text _ => inferInstanceAs (Decidable (_ ∧ _))
  | .slot _ => inferInstanceAs (Decidable (¬ _))

theorem cut_text {content : Text} (h : (Segment.text content).Closed) (own rest : Text) :
    cut (.text own) (content ++ rest) = cut (.text (own ++ content)) rest := by
  induction content generalizing own with
  | nil => simp
  | cons c content ih =>
      obtain ⟨hchain, hlast⟩ := h
      -- What follows the first code point, in the text or behind it, opens no slot.
      have hopen : ∀ more, c = .char '$' → content ++ rest ≠ .char '{' :: more := by
        intro more hc he
        cases content with
        | nil => exact hlast (by simp [hc])
        | cons d content =>
            obtain ⟨hd, -⟩ := List.cons.inj he
            exact (List.isChain_cons_cons.mp hchain).1 ⟨hc, hd⟩
      have hrest : (Segment.text content).Closed := by
        refine ⟨hchain.tail, ?_⟩
        intro hl
        apply hlast
        rw [List.getLast?_cons, hl]
        rfl
      rw [List.cons_append, cut, ih hrest]
      · simp
      · exact fun more hc he => hopen more hc he

theorem cut_slot {name : Text} (h : (Segment.slot name).Closed) (own rest : Text) :
    cut (.slot own) (name ++ .char '}' :: rest) = .slot (own ++ name) :: cut (.text []) rest := by
  induction name generalizing own with
  | nil => simp [cut]
  | cons c name ih =>
      obtain ⟨hc, hname⟩ := not_or.mp (List.mem_cons.not.mp h)
      rw [List.cons_append, cut, ih hname]
      · simp
      · exact fun he => hc he.symm

/-- Written segments are read back. -/
theorem cut_written {segments : List Segment} (h : ∀ segment ∈ segments, segment.Closed)
    (own : Text) :
    cut (.text own) (segments.flatMap Segment.written) = joined own segments := by
  induction segments generalizing own with
  | nil => rfl
  | cons segment segments ih =>
      obtain ⟨hsegment, hrest⟩ := List.forall_mem_cons.mp h
      rw [List.flatMap_cons]
      cases segment with
      | text content => rw [Segment.written, cut_text hsegment, ih hrest, joined]
      | slot name =>
          have hwritten : (Segment.slot name).written ++ segments.flatMap Segment.written =
              .char '$' :: .char '{' ::
                (name ++ .char '}' :: segments.flatMap Segment.written) := by
            have hopen : Text.ofString "$\x7b" = [.char '$', .char '{'] := by decide
            have hclose : Text.ofString "\x7d" = [.char '}'] := by decide
            simp [Segment.written, hopen, hclose]
          rw [hwritten, cut, cut_slot hsegment, ih hrest, List.nil_append, joined]

/-! ## Slots -/

@[simp] theorem slots_nil : slots [] = [] := rfl

@[simp] theorem slots_text (content : Text) (rest : List Segment) :
    slots (.text content :: rest) = slots rest := rfl

@[simp] theorem slots_slot (name : Text) (rest : List Segment) :
    slots (.slot name :: rest) = name :: slots rest := rfl

@[simp] theorem slots_append (front back : List Segment) :
    slots (front ++ back) = slots front ++ slots back :=
  List.filterMap_append

theorem slots_flatten (parts : List (List Segment)) : slots parts.flatten = parts.flatMap slots :=
  List.filterMap_flatten.trans List.flatMap_def.symm

theorem slots_joined (own : Text) (segments : List Segment) :
    slots (joined own segments) = slots segments := by
  induction segments generalizing own with
  | nil => rfl
  | cons segment segments ih =>
      cases segment with
      | text content => rw [joined, ih, slots_text]
      | slot name => rw [joined, slots_text, slots_slot, slots_slot, ih]

theorem placeholders_written {segments : List Segment} (h : ∀ segment ∈ segments, segment.Closed) :
    placeholders (segments.flatMap Segment.written) = slots segments := by
  rw [placeholders, pieces, cut_written h, slots_joined]

/-! ## Values -/

/-- What the segments come to, one behind another, if each of them comes to something. -/
def gather? {α : Type} (piece : Segment → Option (List α)) : List Segment → Option (List α)
  | [] => some []
  | segment :: rest => do
      let front ← piece segment
      let back ← gather? piece rest
      return front ++ back

theorem gather?_cons {α : Type} (piece : Segment → Option (List α)) (segment : Segment)
    (rest : List Segment) :
    gather? piece (segment :: rest) =
      (piece segment).bind fun front => (gather? piece rest).map (front ++ ·) := by
  rw [gather?]
  cases piece segment with
  | none => rfl
  | some front => cases gather? piece rest <;> rfl

section Values

variable (values : List (Text × Json))

/-- A segment with the value of its slot put in, if the slot has a value that is text. -/
def Segment.fill? : Segment → Option Text
  | .text content => some content
  | .slot name =>
      match Entries.get? values name with
      | some (.str value) => some value
      | _ => none

/-- Segments with their values put in. -/
def fillAll? (segments : List Segment) : Option Text := gather? (Segment.fill? values) segments

/-- A text with the values of its slots put in. -/
def fill? (text : Text) : Option Text := fillAll? values (pieces text)

@[simp] theorem fillAll?_nil : fillAll? values [] = some [] := rfl

theorem fillAll?_cons (segment : Segment) (rest : List Segment) :
    fillAll? values (segment :: rest) =
      (segment.fill? values).bind fun front => (fillAll? values rest).map (front ++ ·) :=
  gather?_cons ..

theorem fillAll?_text_cons (content : Text) (rest : List Segment) :
    fillAll? values (.text content :: rest) = (fillAll? values rest).map (content ++ ·) := by
  rw [fillAll?_cons]
  rfl

theorem fillAll?_joined (own : Text) (segments : List Segment) :
    fillAll? values (joined own segments) = (fillAll? values segments).map (own ++ ·) := by
  induction segments generalizing own with
  | nil => simp [joined, fillAll?_text_cons]
  | cons segment segments ih =>
      cases segment with
      | text content =>
          rw [joined, ih, fillAll?_text_cons]
          simp [Function.comp_def]
      | slot name =>
          rw [joined, fillAll?_text_cons, fillAll?_cons, ih, fillAll?_cons]
          simp

theorem fill?_written {segments : List Segment} (h : ∀ segment ∈ segments, segment.Closed) :
    fill? values (segments.flatMap Segment.written) = fillAll? values segments := by
  rw [fill?, pieces, cut_written h, fillAll?_joined]
  simp

variable {values}

theorem fillAll?_append {front back : List Segment} {s t : Text}
    (hf : fillAll? values front = some s) (hb : fillAll? values back = some t) :
    fillAll? values (front ++ back) = some (s ++ t) := by
  induction front generalizing s with
  | nil =>
      obtain rfl : [] = s := Option.some.inj hf
      exact hb
  | cons segment front ih =>
      rw [fillAll?_cons, Option.bind_eq_some_iff] at hf
      obtain ⟨own, hown, hmap⟩ := hf
      obtain ⟨rest, hrest, rfl⟩ := Option.map_eq_some_iff.mp hmap
      rw [List.cons_append, fillAll?_cons, hown, ih hrest]
      simp

theorem fillAll?_text (content : Text) : fillAll? values [.text content] = some content := by
  simp [fillAll?_text_cons]

theorem fillAll?_slot_cons {name value : Text}
    (h : Entries.get? values name = some (.str value)) (rest : List Segment) :
    fillAll? values (.slot name :: rest) = (fillAll? values rest).map (value ++ ·) := by
  simp [fillAll?_cons, Segment.fill?, h]

theorem fillAll?_flatMap {α : Type} {items : List α} {part : α → List Segment}
    {text : α → Text} (h : ∀ item ∈ items, fillAll? values (part item) = some (text item)) :
    fillAll? values (items.flatMap part) = some (items.flatMap text) := by
  induction items with
  | nil => rfl
  | cons item items ih =>
      obtain ⟨hitem, hitems⟩ := List.forall_mem_cons.mp h
      exact fillAll?_append hitem (ih hitems)

theorem fillAll?_intercalate {α : Type} {items : List α} {separator : List Segment}
    {part : α → List Segment} {between : Text} {text : α → Text}
    (hs : fillAll? values separator = some between)
    (h : ∀ item ∈ items, fillAll? values (part item) = some (text item)) :
    fillAll? values (separator.intercalate (items.map part)) =
      some (between.intercalate (items.map text)) := by
  induction items with
  | nil => rfl
  | cons item items ih =>
      obtain ⟨hitem, hitems⟩ := List.forall_mem_cons.mp h
      cases items with
      | nil => simpa using hitem
      | cons next items =>
          simp only [List.map_cons, List.intercalate_cons_cons]
          exact fillAll?_append (fillAll?_append hitem hs) (ih hitems)

end Values

end TableGateway.Mapping
