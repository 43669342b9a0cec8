import TableGateway.Decimal.Binary64
import TableGateway.Failure
import TableGateway.Json.Basic

/-!
# Loose views of a value

Two values are the same when they differ only in how a number is written (`1`, `1.0` and true are
one number) or in the order of object fields. Both differences disappear in a normal form, so the
relation is an equivalence by definition.
-/

namespace TableGateway.Json

/-! ## Normal forms -/

/-- Places a field before the first one with a larger key. -/
def insertField (key : Text) (value : Json) : List (Text × Json) → List (Text × Json)
  | [] => [(key, value)]
  | (k, v) :: rest =>
      if key ≤ k then (key, value) :: (k, v) :: rest else (k, v) :: insertField key value rest

mutual
/-- The value with integral numbers as integers, truth values as 0 and 1, and fields sorted by key.
-/
def normal : Json → Json
  | null => null
  | bool b => int (if b then 1 else 0)
  | int n => int n
  | float x => match x.toInt? with
    | some n => int n
    | none => float x
  | str s => str s
  | arr items => arr (normalItems items)
  | obj fields => obj (normalFields fields)

def normalItems : List Json → List Json
  | [] => []
  | item :: rest => normal item :: normalItems rest

def normalFields : List (Text × Json) → List (Text × Json)
  | [] => []
  | (key, value) :: rest => insertField key (normal value) (normalFields rest)
end

/-- The values have one normal form. -/
def Same (a b : Json) : Prop := normal a = normal b

instance (a b : Json) : Decidable (Same a b) := inferInstanceAs (Decidable (normal a = normal b))

theorem Same.refl (a : Json) : Same a a := rfl

theorem Same.symm {a b : Json} (h : Same a b) : Same b a := Eq.symm h

theorem Same.trans {a b c : Json} (h : Same a b) (k : Same b c) : Same a c := Eq.trans h k

/-!
## Numbers that passed a channel of doubles

Where all numbers are doubles in the fewest digits, `1.0` and `1` are one number, and an integer
that is no double comes out as its nearest double.
-/

/-- The most digits of a whole number that is written without an exponent. -/
def wholeDigits : Nat := 21

/-- A finite double by its shortest text: an integer when that text has neither a fraction nor an
exponent. -/
def ofFinite (x : Binary64) : Json :=
  if x.isZero then int 0
  else
    let decimal := x.shortest
    let digits := (Nat.toDigits 10 decimal.coefficient).length
    if 0 ≤ decimal.exponent10 ∧ digits + decimal.exponent10 ≤ wholeDigits then
      let size : Int := decimal.coefficient * Nat.pow 10 decimal.exponent10.toNat
      int (if x.negative then -size else size)
    else float (.finite x)

/-- A double behind the channel; one that is not finite is lost. -/
def ofDouble : Double → Json
  | .finite x => ofFinite x
  | _ => null

/-- A number behind the channel. All other values are left as they are. -/
def rounded : Json → Json
  | int n => ofDouble (.ofDecimal (n < 0) n.natAbs 0)
  | float x => ofDouble x
  | j => j

/-! ## Going through a value -/

/-- What going through a value yields: the items of a list, the code points of a text, the keys of
an object. Other values cannot be gone through. -/
def elements : Json → Except Fault (List Json)
  | arr items => .ok items
  | str s => .ok (s.map fun p => str [p])
  | obj fields => .ok (fields.map fun field => str field.1)
  | j => .error (.notIterable j.kind)

end TableGateway.Json
