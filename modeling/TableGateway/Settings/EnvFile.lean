import TableGateway.Settings.Environment
import TableGateway.Settings.FileTree
import TableGateway.Text.Basic

/-!
# Environment files

Lines of the form `NAME=value` that give variables a value unless they have a non-empty one. Blank
lines, comments, lines without an equals sign and lines without a name are passed over.
-/

namespace TableGateway.EnvFile

/-- The assignment of a line: name and value without surrounding white space. -/
def assignment? (line : Text) : Option (Text × Text) :=
  let text := Text.strip line
  if text.head? = some (.char '#') then none
  else match Text.fromFirst '=' text with
    | [] => none
    | _ :: value =>
        let name := Text.strip (Text.before '=' text)
        if name.isEmpty then none else some (name, Text.strip value)

/-- The assignments of a text, in order. -/
def assignments (content : String) : List (Text × Text) :=
  (Text.split '\n' content).filterMap assignment?

/-- Applies one assignment, unless the variable has a non-empty value. -/
def apply (environment : Environment) (assignment : Text × Text) :
    Except EnvironmentError Environment :=
  match environment.given? assignment.1 with
  | some _ => .ok environment
  | none => environment.set assignment.1 assignment.2

/-- Applies assignments in order. The first one that cannot be set ends the loading; those before it
stay. -/
def applyAll (environment : Environment) :
    List (Text × Text) → Environment × Option EnvironmentError
  | [] => (environment, none)
  | assignment :: rest =>
      match apply environment assignment with
      | .ok next => applyAll next rest
      | .error e => (environment, some e)

/-- Why an environment file is not loaded to its end. -/
inductive LoadError where
  | file (cause : FileError)
  | variable (cause : EnvironmentError)
  deriving DecidableEq

/-- The environment after loading the file at a path; a path that leads nowhere changes nothing. -/
def load (tree : FileTree) (environment : Environment) (path : FilePath) :
    Environment × Option LoadError :=
  match tree.pathExists path with
  | .error cause => (environment, some (.file cause))
  | .ok false => (environment, none)
  | .ok true =>
      match tree.readText path with
      | .error cause => (environment, some (.file cause))
      | .ok text =>
          let loaded := applyAll environment (assignments text)
          (loaded.1, loaded.2.map .variable)

end TableGateway.EnvFile
