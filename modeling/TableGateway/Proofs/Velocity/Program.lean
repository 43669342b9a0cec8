import Mathlib.Logic.Function.Basic
import TableGateway.Json.Reader

/-! # Mapping programs

What the gateway does with a request template: the part of the Velocity language that the templates
are written in. A program prints text, shows and sets references, repeats a block for every item of
a list and runs one under a condition. -/

namespace TableGateway.Velocity

/-! ## Values -/

/-- What a reference stands for. -/
inductive Value where
  | json (value : Json)
  /-- The request with its body. -/
  | input (body : Text)
  /-- The helper that reads JSON. -/
  | util
  /-- The innermost loop; whether there are further items. -/
  | loop (more : Bool)
  deriving DecidableEq

namespace Value

def property? : Value → Text → Option Value
  | input body, name => if name = "body" then some (json (.str body)) else none
  | _, _ => none

/-- The result of a method without arguments. -/
def call? : Value → Text → Option Value
  | json (.obj fields), name =>
      if name = "keySet" then some (json (.arr ((Entries.keys fields).map .str))) else none
  | loop more, name => if name = "hasNext" then some (json (.bool more)) else none
  | _, _ => none

/-- The result of a method with one argument. -/
def callWith? : Value → Text → Value → Option Value
  | json (.obj fields), name, json (.str key) =>
      if name = "get" then (Entries.get? fields key).map json else none
  | util, name, json (.str text) =>
      if name = "parseJson" then (Json.read text).toOption.map json else none
  | _, _, _ => none

/-- The items that a loop goes through. -/
def items : Value → List Value
  | json (.arr items) => items.map json
  | json (.obj fields) => fields.map fun field => json field.2
  | _ => []

/-- Whether a block under a condition is run. -/
def holds : Value → Bool
  | json (.bool value) => value
  | json .null => false
  | _ => true

end Value

/-- The values of the variables. -/
abbrev Scope := Text → Option Value

/-- Gives a variable a value, or takes its value away. -/
def Scope.put (scope : Scope) (name : Text) (value : Option Value) : Scope :=
  Function.update scope name value

@[simp] theorem Scope.put_self (scope : Scope) (name : Text) (value : Option Value) :
    scope.put name value name = value :=
  Function.update_self ..

theorem Scope.put_of_ne {name other : Text} (h : other ≠ name) (scope : Scope)
    (value : Option Value) : scope.put name value other = scope other :=
  Function.update_of_ne h ..

/-- The variables inside a loop at one of its items. -/
def Scope.enter (scope : Scope) (name : Text) (item : Value) (more : Bool) : Scope :=
  (scope.put name (some item)).put "foreach" (some (.loop more))

@[simp] theorem Scope.enter_loop (scope : Scope) (name : Text) (item : Value) (more : Bool) :
    scope.enter name item more "foreach" = some (.loop more) :=
  Scope.put_self ..

theorem Scope.enter_self {name : Text} (h : name ≠ "foreach") (scope : Scope) (item : Value)
    (more : Bool) : scope.enter name item more name = some item := by
  rw [enter, put_of_ne h, put_self]

theorem Scope.enter_of_ne {name other : Text} (h : other ≠ name) (hloop : other ≠ "foreach")
    (scope : Scope) (item : Value) (more : Bool) :
    scope.enter name item more other = scope other := by
  rw [enter, put_of_ne hloop, put_of_ne h]

/-- The variables behind a loop, with what its own two variables were in front of it. -/
def Scope.leave (scope before : Scope) (name : Text) : Scope :=
  (scope.put name (before name)).put "foreach" (before "foreach")

@[simp] theorem Scope.leave_loop (scope before : Scope) (name : Text) :
    scope.leave before name "foreach" = before "foreach" :=
  Scope.put_self ..

theorem Scope.leave_of_ne {name other : Text} (h : other ≠ name) (hloop : other ≠ "foreach")
    (scope before : Scope) : scope.leave before name other = scope other := by
  rw [leave, put_of_ne hloop, put_of_ne h]

/-- The variables of a request with a body. -/
def Scope.request (body : Text) : Scope :=
  Scope.put (Scope.put (fun _ => none) "util" (some .util)) "input" (some (.input body))

/-! ## References -/

inductive Reference where
  | named (name : Text)
  | property (target : Reference) (name : Text)
  | call (target : Reference) (name : Text)
  | callWith (target : Reference) (name : Text) (argument : Reference)
  deriving DecidableEq

def Reference.value? (scope : Scope) : Reference → Option Value
  | named name => scope name
  | property target name => (target.value? scope).bind (·.property? name)
  | call target name => (target.value? scope).bind (·.call? name)
  | callWith target name argument => do
      let value ← target.value? scope
      let argument ← argument.value? scope
      value.callWith? name argument

/-- The text of a reference; one that does not stand for text is shown as it is written. -/
def Reference.shown (scope : Scope) (reference : Reference) (written : Text) : Text :=
  match reference.value? scope with
  | some (.json (.str text)) => text
  | _ => written

theorem Reference.shown_of_value? {scope : Scope} {reference : Reference} {text : Text}
    (h : reference.value? scope = some (.json (.str text))) (written : Text) :
    reference.shown scope written = text := by
  simp [shown, h]

/-! ## Programs -/

inductive Program where
  | done
  | print (c : CodePoint) (next : Program)
  | insert (reference : Reference) (written : Text) (next : Program)
  | set (name : Text) (value : Reference) (next : Program)
  | foreach (name : Text) (items : Reference) (body next : Program)
  | ifTrue (condition : Reference) (body next : Program)
  deriving DecidableEq

/-- Runs the body of a loop for each item. -/
def each (body : Scope → Text × Scope) (name : Text) : List Value → Scope → Text × Scope
  | [], scope => ([], scope)
  | item :: rest, scope =>
      let first := body (scope.enter name item !rest.isEmpty)
      let others := each body name rest first.2
      (first.1 ++ others.1, others.2)

namespace Program

/-- What a program prints, and the variables behind it. A reference without a value sets nothing. -/
def run : Program → Scope → Text × Scope
  | done, scope => ([], scope)
  | print c next, scope =>
      let rest := next.run scope
      (c :: rest.1, rest.2)
  | insert reference written next, scope =>
      let rest := next.run scope
      (reference.shown scope written ++ rest.1, rest.2)
  | set name value next, scope =>
      match value.value? scope with
      | some value => next.run (scope.put name (some value))
      | none => next.run scope
  | foreach name items body next, scope =>
      let block := each body.run name (((items.value? scope).map Value.items).getD []) scope
      let rest := next.run (block.2.leave scope name)
      (block.1 ++ rest.1, rest.2)
  | ifTrue condition body next, scope =>
      if ((condition.value? scope).map Value.holds).getD false then
        let block := body.run scope
        let rest := next.run block.2
        (block.1 ++ rest.1, rest.2)
      else next.run scope

/-- One program behind another. -/
def append : Program → Program → Program
  | done, last => last
  | print c next, last => print c (next.append last)
  | insert reference written next, last => insert reference written (next.append last)
  | set name value next, last => set name value (next.append last)
  | foreach name items body next, last => foreach name items body (next.append last)
  | ifTrue condition body next, last => ifTrue condition body (next.append last)

theorem append_done (p : Program) : p.append done = p := by
  induction p with
  | done => rfl
  | print c next ih | insert reference written next ih | set name value next ih =>
      rw [append, ih]
  | foreach name items body next _ ih | ifTrue condition body next _ ih => rw [append, ih]

/-- Programs behind each other print behind each other. -/
theorem run_append (p q : Program) (scope : Scope) :
    (p.append q).run scope =
      ((p.run scope).1 ++ (q.run (p.run scope).2).1, (q.run (p.run scope).2).2) := by
  induction p generalizing scope with
  | done => rfl
  | print c next ih => simp only [append, run, ih, List.cons_append]
  | insert reference written next ih => simp only [append, run, ih, List.append_assoc]
  | set name value next ih =>
      simp only [append, run]
      cases value.value? scope with
      | none => exact ih scope
      | some value => exact ih _
  | foreach name items body next _ ih => simp only [append, run, ih, List.append_assoc]
  | ifTrue condition body next _ ih =>
      simp only [append, run]
      split
      · simp only [ih, List.append_assoc]
      · exact ih scope

/-- Prints a text in front of a program. -/
def printing (text : Text) (next : Program) : Program := text.foldr print next

theorem run_printing (text : Text) (next : Program) (scope : Scope) :
    (printing text next).run scope = (text ++ (next.run scope).1, (next.run scope).2) := by
  induction text with
  | nil => rfl
  | cons c text ih =>
      simp only [printing, List.foldr_cons, run] at ih ⊢
      rw [ih]
      rfl

end Program

end TableGateway.Velocity
