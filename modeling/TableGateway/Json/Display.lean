import TableGateway.Json.Basic
import TableGateway.Text.Quoted

/-!
# Values inside messages

`literal` is the form that shows the kind of a value: quoted text, `True`, `None`, brackets and
braces. `display` is the same but for text, which it leaves as it is.
-/

namespace TableGateway.Json

/-- How a message spells doubles that are not finite. -/
def literalWords : Double.Words where
  infinity := ['i', 'n', 'f']
  nan := ['n', 'a', 'n']

mutual
/-- A value as a message spells it. -/
def literalChars : Json → List Char
  | null => ['N', 'o', 'n', 'e']
  | bool true => ['T', 'r', 'u', 'e']
  | bool false => ['F', 'a', 'l', 's', 'e']
  | int n => intText n
  | float x => x.text literalWords
  | str s => Text.quoted s
  | arr [] => ['[', ']']
  | arr (item :: rest) => '[' :: (literalChars item ++ literalItems rest ++ [']'])
  | obj [] => ['{', '}']
  | obj ((key, value) :: rest) =>
      '{' :: (Text.quoted key ++ ':' :: ' ' :: literalChars value ++ literalFields rest
        ++ ['}'])

/-- The items after the first, each behind a comma. -/
def literalItems : List Json → List Char
  | [] => []
  | item :: rest => ',' :: ' ' :: (literalChars item ++ literalItems rest)

/-- The fields after the first, each behind a comma. -/
def literalFields : List (Text × Json) → List Char
  | [] => []
  | (key, value) :: rest =>
      ',' :: ' ' ::
        (Text.quoted key ++ ':' :: ' ' :: literalChars value ++ literalFields rest)
end

def literal (j : Json) : Text := .ofChars (literalChars j)

/-- Text as it is, any other value as a message spells it. -/
def display : Json → Text
  | str s => s
  | j => literal j

/-- Several values in parentheses. -/
def rowLiteral : List Json → Text
  | [] => "()"
  | item :: rest => .ofChars ('(' :: (literalChars item ++ literalItems rest ++ [')']))

end TableGateway.Json
