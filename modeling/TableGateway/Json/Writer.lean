import TableGateway.Json.Basic
import TableGateway.Text.Basic

/-!
# Writing JSON

One line of printable ASCII: a blank after each comma and colon, fields in their order, and an
escape for every code point outside the printable ASCII range. Characters beyond the basic plane are
written as a pair of surrogates, and a surrogate of a text as itself.
-/

namespace TableGateway.Json

def unitEscape (unit : Nat) : List Char := '\\' :: 'u' :: Text.hex 4 unit

def escape (c : Char) : List Char :=
  if c = '"' then ['\\', '"']
  else if c = '\\' then ['\\', '\\']
  else if c = '\n' then ['\\', 'n']
  else if c = '\r' then ['\\', 'r']
  else if c = '\t' then ['\\', 't']
  else if c = '\x08' then ['\\', 'b']
  else if c = '\x0c' then ['\\', 'f']
  else if 32 ≤ c.toNat ∧ c.toNat ≤ 126 then [c]
  else if c.toNat < 0x10000 then unitEscape c.toNat
  else
    let offset := c.toNat - 0x10000
    unitEscape (0xd800 + offset / 0x400) ++ unitEscape (0xdc00 + offset % 0x400)

/-- One code point inside a JSON string. -/
def escapePoint : CodePoint → List Char
  | .char c => escape c
  | p => unitEscape p.toNat

def writeText (text : Text) : List Char := '"' :: (text.flatMap escapePoint ++ ['"'])

/-- How doubles that are not finite are written, beyond what JSON has. -/
def numberWords : Double.Words where
  infinity := ['I', 'n', 'f', 'i', 'n', 'i', 't', 'y']
  nan := ['N', 'a', 'N']

mutual
/-- A value on one line. -/
def write : Json → List Char
  | null => ['n', 'u', 'l', 'l']
  | bool true => ['t', 'r', 'u', 'e']
  | bool false => ['f', 'a', 'l', 's', 'e']
  | int n => intText n
  | float x => x.text numberWords
  | str s => writeText s
  | arr [] => ['[', ']']
  | arr (item :: rest) => '[' :: (write item ++ writeItems rest ++ [']'])
  | obj [] => ['{', '}']
  | obj ((key, value) :: rest) =>
      '{' :: (writeText key ++ ':' :: ' ' :: write value ++ writeFields rest ++ ['}'])

/-- The items after the first, each behind a comma. -/
def writeItems : List Json → List Char
  | [] => []
  | item :: rest => ',' :: ' ' :: (write item ++ writeItems rest)

/-- The fields after the first, each behind a comma. -/
def writeFields : List (Text × Json) → List Char
  | [] => []
  | (key, value) :: rest =>
      ',' :: ' ' :: (writeText key ++ ':' :: ' ' :: write value ++ writeFields rest)
end

def render (j : Json) : String := String.ofList (write j)

end TableGateway.Json
