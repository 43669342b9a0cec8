import TableGateway.Entries
import TableGateway.Log.Record
import TableGateway.Text.Split

/-!
# The tree of loggers

Names spell ancestors by their dots. A new logger hangs from the nearest of its ancestors that is in
the tree, or else from the root, and comes between the loggers that have it as an ancestor and those
they hang from. A logger without a level goes by the level of the one it hangs from.

Whether a logger lets a level through is settled when that is first asked and stays so until the
level of some logger is set.
-/

namespace TableGateway.Log

/-- The names of the ancestors of a name that is given in reverse, nearest first, without the root.
The code point before a cut is part of the ancestor's name, also when it is a dot. -/
def ancestorsReversed : Nat → Text → List Text
  | 0, _ => []
  | fuel + 1, text =>
      match Text.fromFirst '.' text with
      | _ :: p :: rest => (p :: rest).reverse :: ancestorsReversed fuel rest
      | _ => []

/-- The names of the ancestors of a name, nearest first, without the root. -/
def ancestors (name : Text) : List Text := ancestorsReversed name.length name.reverse

/-- A logger in the tree: its own level, and the name of the logger that it hangs from. -/
structure Node where
  level : Level := .unset
  parent : Text := ""
  deriving DecidableEq

/-- The loggers by name, and what has been settled about them. The root has the empty name. -/
structure Tree where
  nodes : List (Text × Node) := [("", { level := .warning })]
  settled : List ((Text × Level) × Bool) := []
  deriving DecidableEq

namespace Tree

/-- The word that the root goes by where names are compared. -/
def rootWord : Text := "root"

/-- A name, or the word for the root. -/
def comparedName (name : Text) : Text := if name.isEmpty then rootWord else name

def contains (tree : Tree) (name : Text) : Bool := (Entries.get? tree.nodes name).isSome

/-- Whether a new logger comes between a logger and the one that it hangs from: the new name is
among its ancestors, and the present parent's name does not start with it. -/
def comesBetween (name : Text) (child : Text × Node) : Bool :=
  (ancestors child.1).contains name && !name.isPrefixOf (comparedName child.2.parent)

/-- The name of the logger that a new one hangs from. -/
def parentOf (tree : Tree) (name : Text) : Text :=
  ((ancestors name).find? tree.contains).getD ""

/-- The tree with a logger of the name, which has no level if it is new. -/
def add (tree : Tree) (name : Text) : Tree :=
  if tree.contains name then tree
  else
    let moved := tree.nodes.map fun child =>
      if comesBetween name child then (child.1, { child.2 with parent := name }) else child
    { tree with nodes := moved ++ [(name, { parent := tree.parentOf name })] }

/-- Sets the level of a logger; nothing is settled any more. -/
def setLevel (tree : Tree) (name : Text) (level : Level) : Tree where
  nodes :=
    Entries.put name { (Entries.get? tree.nodes name).getD {} with level := level } tree.nodes

/-- The first level that is set on the way from a logger to the root, in a number of steps. -/
def levelAbove (nodes : List (Text × Node)) : Nat → Text → Level
  | 0, _ => .unset
  | fuel + 1, name =>
      let node := (Entries.get? nodes name).getD {}
      if node.level = .unset ∧ name ≠ "" then levelAbove nodes fuel node.parent else node.level

/-- The level that a logger goes by. No logger is passed twice on the way to the root. -/
def effectiveLevel (tree : Tree) (name : Text) : Level :=
  levelAbove tree.nodes (tree.nodes.length + 1) name

/-- Whether a logger lets a level through. -/
def enabled (tree : Tree) (name : Text) (level : Level) : Bool :=
  (tree.settled.lookup (name, level)).getD ((tree.effectiveLevel name).rank ≤ level.rank)

/-- The tree after it was asked whether a logger lets a level through. -/
def settle (tree : Tree) (name : Text) (level : Level) : Tree :=
  match tree.settled.lookup (name, level) with
  | some _ => tree
  | none => { tree with settled := ((name, level), tree.enabled name level) :: tree.settled }

/-- A level that is set is the one that the logger goes by. -/
theorem effectiveLevel_setLevel (tree : Tree) (name : Text) {level : Level} (h : level ≠ .unset) :
    (tree.setLevel name level).effectiveLevel name = level := by
  simp [effectiveLevel, levelAbove, setLevel, h]

/-- Asking changes no answer. -/
theorem enabled_settle (tree : Tree) (name other : Text) (level asked : Level) :
    (tree.settle name level).enabled other asked = tree.enabled other asked := by
  unfold settle
  split
  · rfl
  next h =>
    by_cases he : (other, asked) = (name, level)
    · obtain ⟨rfl, rfl⟩ := Prod.mk.inj he
      simp [enabled]
    · have hb : ((other, asked) == (name, level)) = false := by simpa using he
      unfold enabled
      rw [List.lookup_cons, hb]
      rfl

end Tree

end TableGateway.Log
