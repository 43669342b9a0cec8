import TableGateway.Text.Basic

/-!
# Cutting text at a separator

`split` cuts at every separator and `join` puts the pieces back; `before` and `fromFirst` cut once,
and `after?` cuts off a word.
`parts` drops the empty pieces, so a path is seen as its non-empty parts.
-/

namespace TableGateway.Text

/-- The pieces between the separators, at least one, empty ones included. -/
def split (separator : CodePoint) : Text → List Text
  | [] => [[]]
  | c :: rest =>
      if c = separator then [] :: split separator rest
      else match split separator rest with
        | [] => [[c]]
        | piece :: pieces => (c :: piece) :: pieces

/-- The pieces with one separator between neighbours. -/
def join (separator : CodePoint) : List Text → Text
  | [] => []
  | [piece] => piece
  | piece :: next :: pieces => piece ++ separator :: join separator (next :: pieces)

/-- The text before the first `stop`, or all of it. -/
def before (stop : CodePoint) (text : Text) : Text := text.takeWhile (· != stop)

/-- The text from the first `stop` on, empty if there is none. -/
def fromFirst (stop : CodePoint) (text : Text) : Text := text.dropWhile (· != stop)

/-- What follows a word that the text starts with. -/
def after? (word text : Text) : Option Text :=
  if word <+: text then some (text.drop word.length) else none

/-- The non-empty pieces of a slash-separated path. -/
def parts (path : Text) : List Text := (split '/' path).filter (· ≠ [])

/-- Line ends in one form: a carriage return, alone or before a line feed, becomes a line feed. -/
def unifyLineEnds : List Char → List Char
  | [] => []
  | '\r' :: '\n' :: rest => '\n' :: unifyLineEnds rest
  | c :: rest => (if c = '\r' then '\n' else c) :: unifyLineEnds rest

theorem before_append_fromFirst (stop : CodePoint) (text : Text) :
    before stop text ++ fromFirst stop text = text :=
  List.takeWhile_append_dropWhile

theorem split_ne_nil (separator : CodePoint) (text : Text) : split separator text ≠ [] := by
  induction text with
  | nil => simp [split]
  | cons c rest ih =>
      simp only [split]
      split
      · simp
      · split <;> simp

@[simp] theorem join_split (separator : CodePoint) (text : Text) :
    join separator (split separator text) = text := by
  induction text with
  | nil => rfl
  | cons c rest ih =>
      have hne := split_ne_nil separator rest
      cases hs : split separator rest with
      | nil => exact absurd hs hne
      | cons piece pieces =>
          rw [hs] at ih
          by_cases h : c = separator
          · simp [split, h, hs, join, ih]
          · cases pieces with
            | nil => simp only [join] at ih; simp [split, h, hs, join, ih]
            | cons next more => simp only [join] at ih; simp [split, h, hs, join, ih]

end TableGateway.Text
