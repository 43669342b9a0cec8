import TableGateway.Json.Basic
import TableGateway.Text.Basic
import TableGateway.Text.Split

/-!
# Reading JSON

A reader for the JSON grammar, with words for the doubles that are not finite. A repeated key keeps
its first place and takes its last value. Integers of more than 4300 digits are refused with their
number of digits. Two escapes that spell a pair of surrogates are one character, and a surrogate
without its other half stays one, escaped or not. How deep values may be nested can be limited.

Every step uses up at least one code point, so the length of the text bounds the depth of the
recursion, and also that of the nesting.
-/

namespace TableGateway.Json

/-- A value that holds other values. -/
inductive Container where
  | array
  | object
  deriving DecidableEq, Repr

inductive ReadError where
  | malformed
  | longInteger (digits : Nat)
  /-- A container is nested too deep. -/
  | tooDeep (container : Container)
  deriving DecidableEq, Repr

/-- The most digits an integer may have. -/
def digitLimit : Nat := 4300

def isGap (c : Char) : Bool := c == ' ' || c == '\t' || c == '\n' || c == '\r'

def skipGap (text : Text) : Text := text.dropWhile (·.isIn isGap)

/-- The value of a hexadecimal digit. -/
def readHexDigit : CodePoint → Option Nat
  | .char c => Text.hexDigit? c
  | .surrogate _ => none

/-- The value of four hexadecimal digits. -/
def readUnit : Text → Option (Nat × Text)
  | a :: b :: c :: d :: rest => do
      let a ← readHexDigit a
      let b ← readHexDigit b
      let c ← readHexDigit c
      let d ← readHexDigit d
      some (4096 * a + 256 * b + 16 * c + d, rest)
  | _ => none

/-- The code point of an escape by code units: one unit, or two for a pair of surrogates. -/
def readUnits (text : Text) : Option (CodePoint × Text) :=
  match readUnit text with
  | none => none
  | some (unit, rest) =>
      if 0xd800 ≤ unit ∧ unit < 0xdc00 then
        match rest with
        | .char '\\' :: .char 'u' :: more =>
            match readUnit more with
            | none => none
            | some (low, afterPair) =>
                if 0xdc00 ≤ low ∧ low < 0xe000 then
                  some (.ofNat (0x10000 + (unit - 0xd800) * 0x400 + (low - 0xdc00)), afterPair)
                else some (.ofNat unit, rest)
        | _ => some (.ofNat unit, rest)
      else some (.ofNat unit, rest)

/-- The character of an escape by one letter. -/
def escapedLetter? (c : CodePoint) : Option CodePoint :=
  if c = .char '"' || c = .char '\\' || c = .char '/' then some c
  else if c = .char 'n' then some (.char '\n')
  else if c = .char 'r' then some (.char '\r')
  else if c = .char 't' then some (.char '\t')
  else if c = .char 'b' then some (.char '\x08')
  else if c = .char 'f' then some (.char '\x0c')
  else none

/-- The next code point of a string, escaped or not. -/
def readPoint : Text → Option (CodePoint × Text)
  | [] => none
  | c :: rest =>
      if c = .char '\\' then
        match rest with
        | [] => none
        | e :: more =>
            if e = .char 'u' then readUnits more
            else (escapedLetter? e).map fun d => (d, more)
      else if c.toNat < 32 then none
      else some (c, rest)

/-- The code points up to the closing quote, put in front of `done` in reverse. -/
def readText : Nat → Text → Text → Except ReadError (Text × Text)
  | 0, _, _ => .error .malformed
  | fuel + 1, done, text =>
      match text with
      | .char '"' :: rest => .ok (done.reverse, rest)
      | _ =>
          match readPoint text with
          | none => .error .malformed
          | some (p, rest) => readText fuel (p :: done) rest

def readString (text : Text) : Except ReadError (Text × Text) :=
  readText (text.length + 1) [] text

def isDigit (p : CodePoint) : Bool := p.isIn Char.isDigit

/-- The number that digits spell. -/
def digitsValue (digits : Text) : Nat := Nat.ofDigitChars 10 (digits.map CodePoint.toChar) 0

/-- The digits after a point, if there is a point with digits. -/
def readFraction : Text → Text × Text
  | .char '.' :: rest =>
      let digits := rest.takeWhile isDigit
      if digits.isEmpty then ([], .char '.' :: rest) else (digits, rest.dropWhile isDigit)
  | text => ([], text)

/-- The exponent, if there is one with digits. -/
def readExponent (text : Text) : Option Int × Text :=
  match text with
  | [] => (none, text)
  | mark :: rest =>
      if mark = .char 'e' || mark = .char 'E' then
        let (negative, rest) := match rest with
          | .char '-' :: more => (true, more)
          | .char '+' :: more => (false, more)
          | more => (false, more)
        let digits := rest.takeWhile isDigit
        if digits.isEmpty then (none, text)
        else
          let size : Int := digitsValue digits
          (some (if negative then -size else size), rest.dropWhile isDigit)
      else (none, text)

/-- A finite number without its sign: an integer unless a fraction or an exponent follows the whole
part, which is a lone zero or starts with another digit. -/
def readMagnitude (negative : Bool) (text : Text) : Except ReadError (Json × Text) :=
  let (whole, rest) : Text × Text := match text with
    | .char '0' :: rest => ([.char '0'], rest)
    | _ => (text.takeWhile isDigit, text.dropWhile isDigit)
  if whole.isEmpty then .error .malformed
  else
    let (fraction, afterFraction) := readFraction rest
    let (exponent, afterExponent) := readExponent afterFraction
    if fraction.isEmpty && exponent.isNone then
      if digitLimit < whole.length then .error (.longInteger whole.length)
      else
        let size : Int := digitsValue whole
        .ok (.int (if negative then -size else size), rest)
    else
      let coefficient := digitsValue (whole ++ fraction)
      let value := Double.ofDecimal negative coefficient (exponent.getD 0 - fraction.length)
      .ok (.float value, afterExponent)

/-- A number without its sign, or the word for infinity. -/
def readUnsigned (negative : Bool) (text : Text) : Except ReadError (Json × Text) :=
  match Text.after? "Infinity" text with
  | some rest => .ok (.float (.infinite negative), rest)
  | none => readMagnitude negative text

def readNumber : Text → Except ReadError (Json × Text)
  | .char '-' :: rest => readUnsigned true rest
  | text => readUnsigned false text

/-- The values that are spelled by a word. -/
def words : List (Text × Json) :=
  [("null", .null), ("true", .bool true), ("false", .bool false), ("NaN", .float .nan)]

/-- A value that holds no other values. -/
def readScalar (text : Text) : Except ReadError (Json × Text) :=
  match text with
  | .char '"' :: rest => do
      let (content, rest) ← readString rest
      .ok (.str content, rest)
  | _ =>
      match words.findSome? fun word => (Text.after? word.1 text).map (word.2, ·) with
      | some found => .ok found
      | none => readNumber text

mutual
/-- A value at the start of the text, and the rest of the text. The value may hold containers to the
depth of `room`. -/
def readValue : Nat → Nat → Text → Except ReadError (Json × Text)
  | 0, _, _ => .error .malformed
  | fuel + 1, room, text =>
      match text with
      | .char '[' :: rest =>
          if room = 0 then .error (.tooDeep .array)
          else match skipGap rest with
            | .char ']' :: rest => .ok (.arr [], rest)
            | rest => readItems fuel (room - 1) [] rest
      | .char '{' :: rest =>
          if room = 0 then .error (.tooDeep .object)
          else match skipGap rest with
            | .char '}' :: rest => .ok (.obj [], rest)
            | rest => readFields fuel (room - 1) [] rest
      | _ => readScalar text

/-- The items up to the closing bracket, after those in `done`, which are in reverse. -/
def readItems : Nat → Nat → List Json → Text → Except ReadError (Json × Text)
  | 0, _, _, _ => .error .malformed
  | fuel + 1, room, done, text =>
      match readValue fuel room text with
      | .error e => .error e
      | .ok (item, rest) =>
          match skipGap rest with
          | .char ',' :: rest => readItems fuel room (item :: done) (skipGap rest)
          | .char ']' :: rest => .ok (.arr (item :: done).reverse, rest)
          | _ => .error .malformed

/-- The fields up to the closing brace, after those in `done`. -/
def readFields :
    Nat → Nat → List (Text × Json) → Text → Except ReadError (Json × Text)
  | 0, _, _, _ => .error .malformed
  | fuel + 1, room, done, text =>
      match text with
      | .char '"' :: rest =>
          match readString rest with
          | .error e => .error e
          | .ok (key, rest) =>
              match skipGap rest with
              | .char ':' :: rest =>
                  match readValue fuel room (skipGap rest) with
                  | .error e => .error e
                  | .ok (value, rest) =>
                      match skipGap rest with
                      | .char ',' :: rest =>
                          readFields fuel room (Entries.put key value done) (skipGap rest)
                      | .char '}' :: rest => .ok (.obj (Entries.put key value done), rest)
                      | _ => .error .malformed
              | _ => .error .malformed
      | _ => .error .malformed
end

/-- The value that a text holds, with nothing but white space around it and with containers nested
no deeper than `depth`. -/
def readWithin (depth : Nat) (text : Text) : Except ReadError Json :=
  match readValue (text.length + 1) depth (skipGap text) with
  | .error e => .error e
  | .ok (value, rest) => if (skipGap rest).isEmpty then .ok value else .error .malformed

/-- The value that a text holds, with nothing but white space around it. A text cannot nest
containers deeper than it is long. -/
def read (text : Text) : Except ReadError Json := readWithin text.length text

/-- The value that a text holds when its containers are nested no deeper than `depth`. -/
def parseWithin (depth : Nat) (text : String) : Except ReadError Json :=
  readWithin depth text

def parse (text : String) : Except ReadError Json := read text

end TableGateway.Json
