import TableGateway.Mapping.Request
import TableGateway.Proofs.Entries
import TableGateway.Proofs.Velocity.Syntax

/-! # The loop over a request body

The end of the template that stores an item, as a program: it goes through the attributes of the
request body and, for each, through its type tags, and prints a comma wherever the innermost loop
goes on. -/

namespace TableGateway.Mapping

open Velocity Velocity.Program

/-! ## The program -/

/-- Whether the innermost loop goes on. -/
def goesOn : Reference := .call (.named "foreach") "hasNext"

/-- A comma when the innermost loop goes on. -/
def comma (next : Program) : Program := .ifTrue goesOn (printing "," .done) next

/-- Prints one type tag of an attribute with its value. -/
def copyType : Program :=
  printing "\n          \"" <| .insert (.named "key") "$key" <|
  printing "\":\x7b\"" <| .insert (.named "type") "$type" <|
  printing "\" : \"" <|
    .insert (.callWith (.named "item") "get" (.named "type")) "$item.get($type)" <|
  printing "\"\x7d\n        " <| comma <|
  printing "\n        " .done

/-- Prints one attribute. -/
def copyAttribute : Program :=
  printing "\n        " <| .set "item" (.callWith (.named "body") "get" (.named "key")) <|
  printing "\n        " <| .foreach "type" (.call (.named "item") "keySet") copyType <|
  printing "\n      " <| comma <|
  printing "\n      " .done

/-- Prints all attributes of the request body and closes the item. -/
def copyBody : Program :=
  printing "\n      " <|
    .set "body" (.callWith (.named "util") "parseJson" (.property (.named "input") "body")) <|
  printing "\n      " <| .foreach "key" (.call (.named "body") "keySet") copyAttribute <|
  printing "\n    \x7d\n    " .done

/-- The loop is read as its program, whatever part of a template stands behind it. -/
theorem lex_bodyLoop_append :
    ∀ tail ∈ [Text.ofString "\x7d", Text.ofString ",\"ConditionExpression\": \""],
      lex (bodyLoop ++ tail) = copyBody.tokens ++ lex tail := by
  decide +kernel

/-! ## Attributes -/

/-- A typed attribute of a request body. -/
structure Attribute where
  name : Text
  type : Text
  value : Text
  deriving DecidableEq

namespace Attribute

def typed (a : Attribute) : Json := .obj [(a.type, .str a.value)]

def field (a : Attribute) : Text × Json := (a.name, a.typed)

/-- An attribute as the loop prints it. -/
def text (a : Attribute) : Text :=
  "\"" ++ a.name ++ "\":\x7b\"" ++ a.type ++ "\" : \"" ++ a.value ++ "\"\x7d"

/-- An attribute with the blanks around it, and with a comma if there are more. -/
def printed (a : Attribute) (more : Bool) : Text :=
  "\n        \n        \n          " ++ a.text ++ "\n        \n        \n      " ++
    (if more then "," else "") ++ "\n      "

/-- Attributes as the loop prints them, one after another. -/
def printedAll : List Attribute → Text
  | [] => []
  | a :: rest => a.printed (!rest.isEmpty) ++ printedAll rest

end Attribute

section Run

variable {scope : Scope}

theorem run_comma {more : Bool} (h : scope "foreach" = some (.loop more)) (next : Program) :
    (comma next).run scope =
      ((if more then "," else "") ++ (next.run scope).1, (next.run scope).2) := by
  have hvalue : goesOn.value? scope = some (.json (.bool more)) := by
    simp [goesOn, Reference.value?, h, Value.call?]
  cases more with
  | false => simp only [comma, run, hvalue]; rfl
  | true => simp only [comma, run, hvalue, run_printing]; rfl

/-- What the inner loop prints, and that it leaves the variables as they are. -/
theorem run_copyType {a : Attribute} {more : Bool}
    (hkey : scope "key" = some (.json (.str a.name)))
    (hitem : scope "item" = some (.json a.typed))
    (htype : scope "type" = some (.json (.str a.type)))
    (hloop : scope "foreach" = some (.loop more)) :
    copyType.run scope =
      ("\n          " ++ a.text ++ "\n        " ++ (if more then "," else "") ++ "\n        ",
        scope) := by
  have hvalue : (Reference.callWith (.named "item") "get" (.named "type")).value? scope =
      some (.json (.str a.value)) := by
    simp [Reference.value?, hitem, htype, Value.callWith?, Attribute.typed, Entries.get?_cons]
  have hname : (Reference.named "key").value? scope = _ := hkey
  have htag : (Reference.named "type").value? scope = _ := htype
  simp only [copyType, run_printing, run, Reference.shown_of_value? hname, Reference.shown_of_value? htag,
    Reference.shown_of_value? hvalue, run_comma hloop]
  simp [Attribute.text, Text.ofString, Text.ofChars]

/-- The only type tag of an attribute is the last one, so the inner loop prints no comma. -/
theorem each_copyType {a : Attribute} (hkey : scope "key" = some (.json (.str a.name)))
    (hitem : scope "item" = some (.json a.typed)) :
    each copyType.run "type" [.json (.str a.type)] scope =
      ("\n          " ++ a.text ++ "\n        \n        ",
        scope.enter "type" (.json (.str a.type)) false) := by
  have hkeyInner : scope.enter "type" (.json (.str a.type)) false "key" =
      some (.json (.str a.name)) := by
    rw [Scope.enter_of_ne (by decide) (by decide), hkey]
  have hitemInner : scope.enter "type" (.json (.str a.type)) false "item" =
      some (.json a.typed) := by
    rw [Scope.enter_of_ne (by decide) (by decide), hitem]
  rw [each, each, List.isEmpty_nil, Bool.not_true,
    run_copyType hkeyInner hitemInner (Scope.enter_self (by decide) ..) (Scope.enter_loop ..)]
  simp [Text.ofString, Text.ofChars]

/-- What the outer loop prints for one attribute. The body of the request stays in its variable. -/
theorem run_copyAttribute {a : Attribute} {more : Bool} {fields : List (Text × Json)}
    (hbody : scope "body" = some (.json (.obj fields)))
    (hfield : Entries.get? fields a.name = some a.typed)
    (hkey : scope "key" = some (.json (.str a.name)))
    (hloop : scope "foreach" = some (.loop more)) :
    (copyAttribute.run scope).1 = a.printed more ∧
      (copyAttribute.run scope).2 "body" = some (.json (.obj fields)) := by
  have hitem : (Reference.callWith (.named "body") "get" (.named "key")).value? scope =
      some (.json a.typed) := by
    simp [Reference.value?, hbody, hkey, Value.callWith?, hfield]
  have hkeyItem : scope.put "item" (some (.json a.typed)) "key" = some (.json (.str a.name)) := by
    rw [Scope.put_of_ne (by decide), hkey]
  have htypes : (Reference.call (.named "item") "keySet").value?
      (scope.put "item" (some (.json a.typed))) = some (.json (.arr [.str a.type])) := by
    simp [Reference.value?, Value.call?, Attribute.typed]
  have heach := each_copyType hkeyItem (Scope.put_self ..)
  simp only [copyAttribute, run_printing, run, hitem, htypes, Option.map_some, Option.getD_some,
    Value.items, List.map_cons, List.map_nil, heach]
  rw [run_comma (by rw [Scope.leave_loop, Scope.put_of_ne (by decide), hloop]), run_printing, run]
  constructor
  · simp [Attribute.printed, Text.ofString, Text.ofChars]
  · simp (disch := decide) only [Scope.leave_of_ne, Scope.enter_of_ne, Scope.put_of_ne, hbody]

/-- The outer loop prints the attributes one after another. -/
theorem each_copyAttribute {attributes : List Attribute} {fields : List (Text × Json)}
    (hbody : scope "body" = some (.json (.obj fields)))
    (hfields : ∀ a ∈ attributes, Entries.get? fields a.name = some a.typed) :
    (each copyAttribute.run "key" (attributes.map fun a => .json (.str a.name)) scope).1 =
      Attribute.printedAll attributes := by
  induction attributes generalizing scope with
  | nil => rfl
  | cons a rest ih =>
      obtain ⟨ha, hrest⟩ := List.forall_mem_cons.mp hfields
      have hmore : (rest.map fun a => Value.json (.str a.name)).isEmpty = rest.isEmpty := by
        cases rest <;> rfl
      have hbodyInner : scope.enter "key" (.json (.str a.name)) (!rest.isEmpty) "body" =
          some (.json (.obj fields)) := by
        rw [Scope.enter_of_ne (by decide) (by decide), hbody]
      obtain ⟨hprinted, hkept⟩ := run_copyAttribute hbodyInner ha
        (Scope.enter_self (by decide) ..) (Scope.enter_loop ..)
      rw [List.map_cons, each, hmore, Attribute.printedAll, hprinted, ih hkept hrest]

/-- What the loop prints for a request body. -/
theorem run_copyBody {raw : Text} {attributes : List Attribute}
    (hraw : Json.read raw = .ok (.obj (attributes.map Attribute.field)))
    (hn : (attributes.map Attribute.name).Nodup) :
    (copyBody.run (Scope.request raw)).1 =
      "\n      \n      " ++ Attribute.printedAll attributes ++ "\n    \x7d\n    " := by
  have hinput : Scope.request raw "input" = some (.input raw) := Scope.put_self ..
  have hutil : Scope.request raw "util" = some .util := by
    simp (disch := decide) [Scope.request, Scope.put_of_ne]
  have hparsed : (Reference.callWith (.named "util") "parseJson"
      (.property (.named "input") "body")).value? (Scope.request raw) =
        some (.json (.obj (attributes.map Attribute.field))) := by
    simp [Reference.value?, hutil, hinput, Value.property?, Value.callWith?, hraw, Except.toOption]
  obtain ⟨scope, hscope⟩ : ∃ scope, scope = (Scope.request raw).put "body"
      (some (.json (.obj (attributes.map Attribute.field)))) := ⟨_, rfl⟩
  have hbody : scope "body" = some (.json (.obj (attributes.map Attribute.field))) := by
    rw [hscope, Scope.put_self]
  have hkeys : (Reference.call (.named "body") "keySet").value? scope =
      some (.json (.arr (attributes.map fun a => .str a.name))) := by
    simp [Reference.value?, hbody, Value.call?, Entries.keys, Function.comp_def, Attribute.field]
  have hfields : ∀ a ∈ attributes,
      Entries.get? (attributes.map Attribute.field) a.name = some a.typed := by
    intro a ha
    refine Entries.get?_of_mem ?_ (List.mem_map_of_mem (f := Attribute.field) ha)
    simpa [Entries.keys, Function.comp_def, Attribute.field] using hn
  have heach := each_copyAttribute hbody hfields
  simp only [copyBody, run_printing, run, hparsed, ← hscope, hkeys, Option.map_some,
    Option.getD_some, Value.items, List.map_map, Function.comp_def, heach]
  simp [Text.ofString, Text.ofChars]

end Run

end TableGateway.Mapping
