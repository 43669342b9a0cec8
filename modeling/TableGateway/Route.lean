import TableGateway.Api
import TableGateway.Text.Case
import TableGateway.Text.Split

/-!
# Paths, their names and their resources

A path is named by its non-empty parts: `/users/{id}` is `UsersIdVar` and `/user-lists` is
`UserDashlists`. Logical IDs are made from these names. Every prefix of a path is a resource of its
own, parents first.
-/

namespace TableGateway

/-!
## Names of paths and methods

Only ASCII letters and digits are left in the name of a path.
-/

namespace Route

def spellDashes (text : Text) : Text :=
  text.flatMap fun p => if p = .char '-' then "Dash" else [p]

/-- Marks the variable of one line: the text between its first opening brace and the last closing
brace after that is followed by a word. A line without such a pair stays as it is. -/
def markVariable (line : Text) : Text :=
  match Text.fromFirst '{' line with
  | [] => line
  | _ :: inner =>
      match Text.fromFirst '}' inner.reverse with
      | [] => line
      | _ :: body =>
          Text.before '{' line ++ body.reverse ++ "Var" ++ (Text.before '}' inner.reverse).reverse

/-- The name of one part: dashes and variables as words, then letters and digits only, the first one
in upper case. -/
def partName (part : Text) : Text :=
  Text.upperFirst
    (((Text.split '\n' (spellDashes part)).flatMap markVariable).filter (·.isIn Char.isAlphanum))

/-- The name of a path: the names of its non-empty parts. That of the root path is empty. -/
def pathName (path : Text) : Text := (Text.parts path).flatMap partName

/-- The name of a method: lower case with a capital. -/
def methodName (method : Text) : Text := Text.upperFirst (Text.lower method)

def resourceLogicalId (path : Text) : Text := "ApiGatewayResource" ++ pathName path

def methodLogicalId (resourceName method : Text) : Text :=
  "ApiGatewayMethod" ++ resourceName ++ methodName method

/-- A path without surrounding white space and then without surrounding slashes. -/
def trimPath (path : Text) : Text := Text.trimSlashes (Text.strip path)

end Route

/-!
## Path resources

The root path has none: it is the root resource of the API.
-/

structure PathResource where
  parentId : Json
  pathPart : Text
  restApiId : Json
  deriving DecidableEq

def PathResource.toJson (r : PathResource) : Json :=
  .obj [("Type", .str "AWS::ApiGateway::Resource"),
    ("Properties", .obj [("ParentId", r.parentId), ("PathPart", .str r.pathPart),
      ("RestApiId", r.restApiId)])]

namespace Route

/-- The reference to the resource of a path; a path of slashes alone is the root. -/
def resourceId (api : Api) (path : Text) : Json :=
  if (Text.trimSlashes path).isEmpty then api.rootResourceId
  else Intrinsic.ref (resourceLogicalId path)

def ofParts (parts : List Text) : Text := Text.join '/' parts

/-- Each item with the items before it, which follow `before`. -/
def chainFrom {α : Type} (before : List α) : List α → List (List α × α)
  | [] => []
  | item :: rest => (before, item) :: chainFrom (before ++ [item]) rest

/-- The resource of the prefix that ends with `part` below `parents`. -/
def resourceAt (api : Api) (parents : List Text) (part : Text) : PathResource :=
  ⟨resourceId api (ofParts parents), part, api.restApiId⟩

/-- The resources of all prefixes of a path under their logical IDs. Of two prefixes with one ID the
longer one stays, in the place of the shorter. -/
def resources (api : Api) (path : Text) : List (Text × PathResource) :=
  (chainFrom [] (Text.parts path)).foldl
    (fun entries step =>
      Entries.put (resourceLogicalId (ofParts (step.1 ++ [step.2])))
        (resourceAt api step.1 step.2) entries)
    []

end Route

end TableGateway
