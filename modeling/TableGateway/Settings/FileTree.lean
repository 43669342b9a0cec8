import TableGateway.Json.Display
import TableGateway.Text.Split

/-!
# Files

The files below the working directory, by relative path. A directory exists when a file lies below
it. Of the file system outside the working directory only the directories above it are known. Names
and whole paths have a greatest length in bytes.
-/

namespace TableGateway

/-!
## File paths

A path is kept without empty and single-dot segments. Exactly two leading slashes stay two, more
become one, and the path without segments is a single dot.
-/

/-- A path: the slashes in front and the segments. -/
structure FilePath where
  root : Text
  segments : List Text
  deriving DecidableEq

namespace FilePath

/-- The slashes that stay in front of a path. -/
def rootOf (path : Text) : Text :=
  match (path.takeWhile (· == .char '/')).length with
  | 0 => ""
  | 2 => "//"
  | _ => "/"

def ofText (path : Text) : FilePath where
  root := rootOf path
  segments := (Text.parts path).filter (· ≠ ".")

def toText (path : FilePath) : Text :=
  if path.root.isEmpty && path.segments.isEmpty then "."
  else path.root ++ Text.join '/' path.segments

end FilePath

/-! ## The tree -/

/-- Files with their texts. -/
abbrev FileTree := List (List Text × String)

inductive FileError where
  | notFound
  | notDirectory
  | isDirectory
  | nameTooLong
  | embeddedNull
  deriving DecidableEq

def FileError.message (path : Text) : FileError → Text
  | notFound => "[Errno 2] No such file or directory: " ++ (Json.str path).literal
  | notDirectory => "[Errno 20] Not a directory: " ++ (Json.str path).literal
  | isDirectory => "[Errno 21] Is a directory: " ++ (Json.str path).literal
  | nameTooLong => "[Errno 36] File name too long: " ++ (Json.str path).literal
  | embeddedNull => "embedded null byte"

/-- What reading the file at a path yields. -/
abbrev FileReader := FilePath → Except FileError String

namespace FileTree

/-- A place in the file system: a directory of the tree, one that holds the tree, or a file. -/
inductive Place where
  | inside (directory : List Text)
  | outside
  | file (text : String)
  deriving DecidableEq

def ofFiles (files : List (Text × String)) : FileTree :=
  files.map fun file => ((FilePath.ofText file.1).segments, file.2)

/-- Whether some file lies below a directory. -/
def hasDirectory (tree : FileTree) (directory : List Text) : Bool :=
  tree.any fun file => directory.isPrefixOf file.1 && directory.length < file.1.length

/-- The most bytes that a segment may have. -/
def segmentLimit : Nat := 255

/-- The most bytes that a path may have. -/
def pathLimit : Nat := 4095

/-- One step of a walk. Below a directory a name that is too long is refused before it is looked up.
-/
def step (tree : FileTree) (place : Place) (segment : Text) : Except FileError Place :=
  match place with
  | .file _ => .error .notDirectory
  | .outside =>
      if segment = ".." then .ok .outside
      else if segmentLimit < segment.byteSize then .error .nameTooLong
      else .error .notFound
  | .inside directory =>
      if segment = ".." then
        .ok (if directory.isEmpty then .outside else .inside directory.dropLast)
      else if segmentLimit < segment.byteSize then .error .nameTooLong
      else
        let target := directory ++ [segment]
        match tree.lookup target with
        | some text => .ok (.file text)
        | none => if tree.hasDirectory target then .ok (.inside target) else .error .notFound

/-- Walks along the segments of a path. -/
def walk (tree : FileTree) : Place → List Text → Except FileError Place
  | place, [] => .ok place
  | place, segment :: rest => do
      let next ← step tree place segment
      walk tree next rest

def place (tree : FileTree) (path : FilePath) : Except FileError Place :=
  if path.segments.any (·.contains '\x00') then .error .embeddedNull
  else if pathLimit < path.toText.byteSize then .error .nameTooLong
  else tree.walk (if path.root.isEmpty then .inside [] else .outside) path.segments

/-- The text of the file at a path, with its line ends unified. -/
def readText (tree : FileTree) (path : FilePath) : Except FileError String := do
  match ← tree.place path with
  | .file text => return String.ofList (Text.unifyLineEnds text.toList)
  | _ => throw .isDirectory

/-- Whether a path leads to a file or a directory. Of a path that is too long this is not known. -/
def pathExists (tree : FileTree) (path : FilePath) : Except FileError Bool :=
  match tree.place path with
  | .ok _ => .ok true
  | .error .nameTooLong => .error .nameTooLong
  | .error _ => .ok false

end FileTree

end TableGateway
