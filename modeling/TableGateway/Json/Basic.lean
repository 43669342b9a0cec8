import TableGateway.Decimal.Double
import TableGateway.Entries

/-!
# JSON values

Configuration values may be any JSON. Objects keep the order of their fields; `WellFormed` says that
no key of an object occurs twice.
-/

namespace TableGateway

/-- A JSON value. Numbers with a point or an exponent are doubles, all others are integers of any
size. -/
inductive Json where
  | null
  | bool (value : Bool)
  | int (value : Int)
  | float (value : Double)
  | str (value : Text)
  | arr (items : List Json)
  | obj (fields : List (Text × Json))
  deriving Repr, Inhabited

namespace Json

/-- Whether a value counts as given: neither null, false, zero nor empty. -/
def truthy : Json → Bool
  | null => false
  | bool b => b
  | int n => n != 0
  | float x => !x.isZero
  | str s => !s.isEmpty
  | arr items => !items.isEmpty
  | obj fields => !fields.isEmpty

/-- The name of the kind of a value, as messages give it. -/
def kind : Json → Text
  | null => "NoneType"
  | bool _ => "bool"
  | int _ => "int"
  | float _ => "float"
  | str _ => "str"
  | arr _ => "list"
  | obj _ => "dict"

/-- The value of a field of an object; missing fields, and all fields of other values, are null. -/
def field (j : Json) (name : Text) : Json :=
  match j with
  | obj fields => (Entries.get? fields name).getD null
  | _ => null

/-- The value itself when it counts as given, and the other one if not. -/
def orElse (j other : Json) : Json := if j.truthy then j else other

mutual
/-- No key of an object, at any depth, occurs twice. -/
def WellFormed : Json → Prop
  | arr items => ItemsWellFormed items
  | obj fields => (Entries.keys fields).Nodup ∧ FieldsWellFormed fields
  | _ => True

def ItemsWellFormed : List Json → Prop
  | [] => True
  | item :: rest => WellFormed item ∧ ItemsWellFormed rest

def FieldsWellFormed : List (Text × Json) → Prop
  | [] => True
  | (_, value) :: rest => WellFormed value ∧ FieldsWellFormed rest
end

mutual
/-- Structural equality is decidable. -/
def decEq : (a b : Json) → Decidable (a = b)
  | null, null => isTrue rfl
  | bool a, bool b => if h : a = b then isTrue (h ▸ rfl) else isFalse (by simpa using h)
  | int a, int b => if h : a = b then isTrue (h ▸ rfl) else isFalse (by simpa using h)
  | float a, float b => if h : a = b then isTrue (h ▸ rfl) else isFalse (by simpa using h)
  | str a, str b => if h : a = b then isTrue (h ▸ rfl) else isFalse (by simpa using h)
  | arr a, arr b => match decEqItems a b with
    | isTrue h => isTrue (h ▸ rfl)
    | isFalse h => isFalse (by simpa using h)
  | obj a, obj b => match decEqFields a b with
    | isTrue h => isTrue (h ▸ rfl)
    | isFalse h => isFalse (by simpa using h)
  | null, bool _ | null, int _ | null, float _ | null, str _ | null, arr _ | null, obj _
  | bool _, null | bool _, int _ | bool _, float _ | bool _, str _ | bool _, arr _ | bool _, obj _
  | int _, null | int _, bool _ | int _, float _ | int _, str _ | int _, arr _ | int _, obj _
  | float _, null | float _, bool _ | float _, int _ | float _, str _ | float _, arr _
  | float _, obj _
  | str _, null | str _, bool _ | str _, int _ | str _, float _ | str _, arr _ | str _, obj _
  | arr _, null | arr _, bool _ | arr _, int _ | arr _, float _ | arr _, str _ | arr _, obj _
  | obj _, null | obj _, bool _ | obj _, int _ | obj _, float _ | obj _, str _ | obj _, arr _ =>
      isFalse (by simp)

def decEqItems : (a b : List Json) → Decidable (a = b)
  | [], [] => isTrue rfl
  | [], _ :: _ | _ :: _, [] => isFalse (by simp)
  | x :: xs, y :: ys => match decEq x y, decEqItems xs ys with
    | isTrue h, isTrue k => isTrue (by rw [h, k])
    | isFalse h, _ => isFalse (by simp [h])
    | _, isFalse k => isFalse (by simp [k])

def decEqFields : (a b : List (Text × Json)) → Decidable (a = b)
  | [], [] => isTrue rfl
  | [], _ :: _ | _ :: _, [] => isFalse (by simp)
  | (k, x) :: xs, (l, y) :: ys =>
      if hk : k = l then
        match decEq x y, decEqFields xs ys with
        | isTrue h, isTrue t => isTrue (by rw [hk, h, t])
        | isFalse h, _ => isFalse (by simp [h])
        | _, isFalse t => isFalse (by simp [t])
      else isFalse (by simp [hk])
end

instance : DecidableEq Json := decEq

end Json

end TableGateway
