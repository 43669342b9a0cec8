import TableGateway.Decimal.Binary64

/-!
# Doubles

A double is a finite number, an infinity, or no number. A decimal beyond the finite range is read as
an infinity. Where doubles are written, those that are not finite have words of their own.
-/

namespace TableGateway

/-!
## Layout of numbers

Integers are plain digits. A double shows its shortest digits with a decimal point when its leading
digit stands between the fourth place after the point and the sixteenth before it, and with a
two-digit signed exponent otherwise.
-/

def intText (n : Int) : List Char :=
  if n < 0 then '-' :: Nat.toDigits 10 n.natAbs else Nat.toDigits 10 n.natAbs

namespace Binary64

/-- The sign and at least two digits of an exponent. -/
def exponentText (power : Int) : List Char :=
  let digits := Nat.toDigits 10 power.natAbs
  (if power < 0 then '-' else '+') :: (List.replicate (2 - digits.length) '0' ++ digits)

/-- Digits with the point after the digit of the power zero. -/
def positional (digits : List Char) (power : Int) : List Char :=
  if power < 0 then
    '0' :: '.' :: (List.replicate ((-power).toNat - 1) '0' ++ digits)
  else
    let whole := power.toNat + 1
    let padded := digits ++ List.replicate (whole - digits.length) '0'
    let fraction := padded.drop whole
    padded.take whole ++ '.' :: (if fraction.isEmpty then ['0'] else fraction)

def scientific (digits : List Char) (power : Int) : List Char :=
  match digits with
  | [] => []
  | first :: rest =>
      (if rest.isEmpty then [first] else first :: '.' :: rest) ++ 'e' :: exponentText power

/-- The shortest text that reads back as the double. -/
def text (x : Binary64) : List Char :=
  let magnitude :=
    if x.isZero then ['0', '.', '0']
    else
      let decimal := x.shortest
      let digits := Nat.toDigits 10 decimal.coefficient
      let power := decimal.exponent10 + digits.length - 1
      if -4 ≤ power && power < 16 then positional digits power else scientific digits power
  if x.negative then '-' :: magnitude else magnitude

end Binary64

/-! ## Doubles that are not finite -/

inductive Double where
  | finite (value : Binary64)
  | infinite (negative : Bool)
  | nan
  deriving DecidableEq, Repr

namespace Double

/-- The double of `coefficient * 10 ^ exponent10`. -/
def ofDecimal (negative : Bool) (coefficient : Nat) (exponent10 : Int) : Double :=
  match Binary64.ofDecimal negative coefficient exponent10 with
  | some x => finite x
  | none => infinite negative

def isZero : Double → Bool
  | finite x => x.isZero
  | _ => false

def toInt? : Double → Option Int
  | finite x => x.toInt?
  | _ => none

/-- The words for the doubles that are not finite. -/
structure Words where
  infinity : List Char
  nan : List Char

/-- The text of a double with the given words. -/
def text (words : Words) : Double → List Char
  | finite x => x.text
  | infinite negative => if negative then '-' :: words.infinity else words.infinity
  | nan => words.nan

end Double

end TableGateway
