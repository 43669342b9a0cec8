import TableGateway.Json.Reader
import TableGateway.Settings.FileTree

/-!
# The configuration file

A JSON file with a list of entries under one field. Values may be nested only so deep.
-/

namespace TableGateway.Config

/-- The field that holds the entries. -/
def entriesField : Text := "apiGatewayServiceProxies"

/-- How deep arrays and objects may be nested. -/
def depthLimit : Nat := 988

inductive ConfigError where
  | file (cause : FileError)
  | notJson
  | longInteger (digits : Nat)
  | tooDeep (container : Json.Container)
  | noEntries
  deriving DecidableEq

/-- What a container is called. -/
def containerName : Json.Container → Text
  | .array => "array"
  | .object => "object"

def ConfigError.message (path : FilePath) : ConfigError → Text
  | file cause => cause.message path.toText
  | notJson => "not a JSON document"
  | longInteger digits =>
      "Exceeds the limit (4300 digits) for integer string conversion: value has " ++ toString digits
        ++ " digits; use sys.set_int_max_str_digits() to increase the limit"
  | tooDeep container =>
      "maximum recursion depth exceeded while decoding a JSON " ++ containerName container
        ++ " from a unicode string"
  | noEntries => path.toText ++ " must contain an '" ++ entriesField ++ "' list"

/-- The entries of a configuration text. -/
def entries (content : String) : Except ConfigError (List Json) :=
  match Json.parseWithin depthLimit content with
  | .error .malformed => .error .notJson
  | .error (.longInteger digits) => .error (.longInteger digits)
  | .error (.tooDeep container) => .error (.tooDeep container)
  | .ok config => match config.field entriesField with
    | .arr entries => .ok entries
    | _ => .error .noEntries

/-- The entries of the configuration at a path. -/
def load (read : FileReader) (path : FilePath) : Except ConfigError (List Json) :=
  match read path with
  | .error cause => .error (.file cause)
  | .ok content => entries content

end TableGateway.Config
