/-!
# Text

Text is a list of code points. Surrogates are code points that are no characters; an escape in JSON
may spell one, so text that was read from JSON may hold them. Code points are ordered by number and
texts by their first difference.
-/

namespace TableGateway

/-- A code point: a character, or the surrogate at an offset in the block of surrogates. -/
inductive CodePoint where
  | char (c : Char)
  | surrogate (offset : Fin 2048)
  deriving DecidableEq, Repr

namespace CodePoint

instance : Coe Char CodePoint := ⟨char⟩

def toNat : CodePoint → Nat
  | char c => c.toNat
  | surrogate offset => 0xd800 + offset

def ofNat (n : Nat) : CodePoint :=
  if h : 0xd800 ≤ n ∧ n < 0xe000 then surrogate ⟨n - 0xd800, by omega⟩ else char (Char.ofNat n)

instance : LT CodePoint := ⟨fun a b => a.toNat < b.toNat⟩

instance (a b : CodePoint) : Decidable (a < b) := inferInstanceAs (Decidable (a.toNat < b.toNat))

/-- Whether a code point is a character of a class. -/
def isIn (members : Char → Bool) : CodePoint → Bool
  | char c => members c
  | surrogate _ => false

/-- The number of bytes in UTF-8, where a surrogate takes as many as its neighbours. -/
def byteSize : CodePoint → Nat
  | char c => c.utf8Size
  | surrogate _ => 3

/-- The character of a code point, with the replacement character for a surrogate. -/
def toChar : CodePoint → Char
  | char c => c
  | surrogate _ => '\ufffd'

@[simp] theorem ofNat_toNat (p : CodePoint) : ofNat p.toNat = p := by
  cases p with
  | char c =>
      have h : ¬ (0xd800 ≤ c.toNat ∧ c.toNat < 0xe000) := by
        rcases c.valid with h | h
        · intro k
          exact absurd h (Nat.not_lt.mpr k.1)
        · intro k
          exact absurd k.2 (Nat.not_lt.mpr h.1)
      simp [toNat, ofNat, h]
  | surrogate offset =>
      have h := offset.isLt
      have k : 0xd800 ≤ 0xd800 + offset.val ∧ 0xd800 + offset.val < 0xe000 := by omega
      simp [toNat, ofNat, k]

end CodePoint

/-- A list of code points. -/
abbrev Text := List CodePoint

namespace Text

def ofChars (cs : List Char) : Text := cs.map .char

def ofString (s : String) : Text := ofChars s.toList

instance : Coe String Text := ⟨ofString⟩

theorem ofString_ne {a b : String} (h : a ≠ b) : ofString a ≠ ofString b := by
  intro he
  have hchars : a.toList = b.toList :=
    (List.map_inj_right fun x y hxy => CodePoint.char.inj hxy).mp he
  exact h (String.toList_injective hchars)

/-- The text as a string, with the replacement character for each surrogate. -/
def toString (text : Text) : String := String.ofList (text.map CodePoint.toChar)

/-- The number of bytes in UTF-8. -/
def byteSize (text : Text) : Nat := text.foldl (fun size p => size + p.byteSize) 0

@[simp] theorem toString_ofString (s : String) : (ofString s).toString = s := by
  have h : (s.toList.map CodePoint.char).map CodePoint.toChar = s.toList := by
    rw [List.map_map]
    exact List.map_id s.toList
  simp only [toString, ofString, ofChars, h, String.ofList_toList]

/-!
## Blank characters

The white space that surrounds configuration text, and trimming by a class of code points.
-/

/-- The characters that count as white space, as inclusive ranges of code points. -/
def blankRanges : List (Nat × Nat) :=
  [(9, 13), (28, 32), (133, 133), (160, 160), (5760, 5760), (8192, 8202), (8232, 8233),
   (8239, 8239), (8287, 8287), (12288, 12288)]

def inRanges (ranges : List (Nat × Nat)) (code : Nat) : Bool :=
  ranges.any fun range => range.1 ≤ code && code ≤ range.2

/-- White space: tabs, line ends, the separators of the control area, and all Unicode spaces. -/
def isBlank (c : Char) : Bool := inRanges blankRanges c.toNat

/-- Drops the leading and the trailing code points of a class. -/
def trim (drop : CodePoint → Bool) (text : Text) : Text :=
  ((text.dropWhile drop).reverse.dropWhile drop).reverse

def strip (text : Text) : Text := trim (·.isIn isBlank) text

def trimSlashes (text : Text) : Text := trim (· == '/') text

/-!
## Hexadecimal text

Fixed-width lower-case digits of a code unit, and their value.
-/

/-- The last `width` hexadecimal digits of `n`, in lower case. -/
def hex (width n : Nat) : List Char :=
  (List.range width).reverse.map fun place => Nat.digitChar (n / Nat.pow 16 place % 16)

/-- The value of a hexadecimal digit of either case. -/
def hexDigit? (c : Char) : Option Nat :=
  if '0' ≤ c ∧ c ≤ '9' then some (c.toNat - 48)
  else if 'a' ≤ c ∧ c ≤ 'f' then some (c.toNat - 87)
  else if 'A' ≤ c ∧ c ≤ 'F' then some (c.toNat - 55)
  else none

end Text

end TableGateway
