import TableGateway.Proofs.Velocity.Program
import TableGateway.Text.Split

/-! # The text of mapping programs

Text without marks prints itself. A dollar sign starts a reference and a hash sign a directive; a
mark that starts neither is text. Directives that open a block and those that end one are matched
from the end, so a text whose blocks do not match is no program. -/

namespace TableGateway.Velocity

/-! ## Tokens -/

inductive Token where
  | print (c : CodePoint)
  | insert (reference : Reference) (written : Text)
  | set (name : Text) (value : Reference)
  | foreach (name : Text) (items : Reference)
  | ifTrue (condition : Reference)
  | stop
  deriving DecidableEq

def isNamePart (c : Char) : Bool := c.isAlphanum || c = '_' || c = '-'

/-- The name at the start of a text, which starts with a letter. -/
def readName : Text → Option (Text × Text)
  | [] => none
  | c :: rest =>
      if c.isIn Char.isAlpha then
        some (c :: rest.takeWhile (·.isIn isNamePart), rest.dropWhile (·.isIn isNamePart))
      else none

def skipBlanks (text : Text) : Text := text.dropWhile (·.isIn Char.isWhitespace)

/-- The properties and methods behind a reference. What is neither is left where it is. -/
def readSteps : Nat → Reference → Text → Reference × Text
  | fuel + 1, target, .char '.' :: text =>
      match readName text with
      | none => (target, .char '.' :: text)
      | some (name, .char '(' :: rest) =>
          match skipBlanks rest with
          | .char ')' :: rest => readSteps fuel (.call target name) rest
          | .char '$' :: rest =>
              match readName rest with
              | none => (.property target name, .char '(' :: rest)
              | some (argument, rest) =>
                  let (argument, rest) := readSteps fuel (.named argument) rest
                  match skipBlanks rest with
                  | .char ')' :: rest => readSteps fuel (.callWith target name argument) rest
                  | _ => (.property target name, .char '(' :: rest)
          | _ => (.property target name, .char '(' :: rest)
      | some (name, rest) => readSteps fuel (.property target name) rest
  | _, target, text => (target, text)

/-- The reference behind a dollar sign. -/
def readReference (text : Text) : Option (Reference × Text) :=
  (readName text).map fun name => readSteps text.length (.named name.1) name.2

/-- A sign behind blanks. -/
def afterSign? (sign : CodePoint) (text : Text) : Option Text :=
  match skipBlanks text with
  | c :: rest => if c = sign then some rest else none
  | [] => none

def readSet (text : Text) : Option (Token × Text) := do
  let text ← Text.after? "set" text
  let text ← afterSign? '(' text
  let text ← afterSign? '$' text
  let (name, text) ← readName text
  let text ← afterSign? '=' text
  let text ← afterSign? '$' text
  let (value, text) ← readReference text
  let text ← afterSign? ')' text
  return (.set name value, text)

def readForeach (text : Text) : Option (Token × Text) := do
  let text ← Text.after? "foreach" text
  let text ← afterSign? '(' text
  let text ← afterSign? '$' text
  let (name, text) ← readName text
  let text ← Text.after? "in" (skipBlanks text)
  let text ← afterSign? '$' text
  let (items, text) ← readReference text
  let text ← afterSign? ')' text
  return (.foreach name items, text)

def readIf (text : Text) : Option (Token × Text) := do
  let text ← Text.after? "if" text
  let text ← afterSign? '(' text
  let text ← afterSign? '$' text
  let (condition, text) ← readReference text
  let text ← afterSign? ')' text
  return (.ifTrue condition, text)

def readEnd (text : Text) : Option (Token × Text) :=
  (Text.after? "end" text).map (.stop, ·)

/-- The reference or the directive that a mark starts, and the text behind it. -/
def readMark (mark : CodePoint) (text : Text) : Option (Token × Text) :=
  if mark = .char '$' then
    (readReference text).map fun found =>
      (.insert found.1 (mark :: text.take (text.length - found.2.length)), found.2)
  else if mark = .char '#' then
    ((readSet text).or (readForeach text)).or ((readIf text).or (readEnd text))
  else none

/-- The tokens of a text, without its first code points. -/
def lexFrom : Nat → Text → List Token
  | _, [] => []
  | skip + 1, _ :: rest => lexFrom skip rest
  | 0, c :: rest =>
      match readMark c rest with
      | some (token, after) => token :: lexFrom (rest.length - after.length) rest
      | none => .print c :: lexFrom 0 rest

def lex (text : Text) : List Token := lexFrom 0 text

/-- The tokens that print a text. -/
def prints (text : Text) : List Token := text.map .print

/-- Whether a text has no marks. -/
def Quiet (text : Text) : Prop := ∀ c ∈ text, c ≠ .char '$' ∧ c ≠ .char '#'

instance (text : Text) : Decidable (Quiet text) :=
  inferInstanceAs (Decidable (∀ c ∈ text, c ≠ .char '$' ∧ c ≠ .char '#'))

/-- Quiet text prints itself, whatever follows. -/
theorem lex_quiet_append {text : Text} (h : Quiet text) (rest : Text) :
    lex (text ++ rest) = prints text ++ lex rest := by
  induction text with
  | nil => rfl
  | cons c text ih =>
      obtain ⟨⟨hdollar, hhash⟩, htext⟩ := List.forall_mem_cons.mp h
      have hmark : readMark c (text ++ rest) = none := by
        rw [readMark, if_neg hdollar, if_neg hhash]
      have hrest := ih htext
      unfold lex at hrest ⊢
      rw [List.cons_append, lexFrom, hmark]
      exact congrArg (Token.print c :: ·) hrest

/-! ## Blocks -/

/-- Puts a token in front of a program that is read from its end. The list has what follows in the
innermost block that is still to be opened, then what follows behind that block, and so on. -/
def Token.onto : Token → List Program → Option (List Program)
  | .print c, next :: outer => some (.print c next :: outer)
  | .insert reference written, next :: outer => some (.insert reference written next :: outer)
  | .set name value, next :: outer => some (.set name value next :: outer)
  | .foreach name items, body :: next :: outer => some (.foreach name items body next :: outer)
  | .ifTrue condition, body :: next :: outer => some (.ifTrue condition body next :: outer)
  | .stop, outer => some (.done :: outer)
  | _, _ => none

/-- Puts tokens in front of a program that is read from its end. -/
def stack : List Token → List Program → Option (List Program)
  | [], blocks => some blocks
  | token :: rest, blocks => (stack rest blocks).bind token.onto

/-- The program of a text whose blocks match. -/
def parse? (tokens : List Token) : Option Program :=
  match stack tokens [.done] with
  | some [program] => some program
  | _ => none

/-- The tokens of a program. -/
def Program.tokens : Program → List Token
  | .done => []
  | .print c next => .print c :: next.tokens
  | .insert reference written next => .insert reference written :: next.tokens
  | .set name value next => .set name value :: next.tokens
  | .foreach name items body next => .foreach name items :: (body.tokens ++ .stop :: next.tokens)
  | .ifTrue condition body next => .ifTrue condition :: (body.tokens ++ .stop :: next.tokens)

theorem stack_append (front back : List Token) (blocks : List Program) :
    stack (front ++ back) blocks = (stack back blocks).bind (stack front) := by
  induction front with
  | nil => exact (Option.bind_fun_some _).symm
  | cons token front ih =>
      rw [List.cons_append, stack, ih, Option.bind_assoc]
      rfl

/-- The tokens of a program put it in front of what follows. -/
theorem stack_tokens (p next : Program) (outer : List Program) :
    stack p.tokens (next :: outer) = some (p.append next :: outer) := by
  induction p generalizing next outer with
  | done => rfl
  | print c rest ih | insert reference written rest ih | set name value rest ih =>
      rw [Program.tokens, stack, ih]
      rfl
  | foreach name items body rest ihbody ih | ifTrue condition body rest ihbody ih =>
      rw [Program.tokens, stack, stack_append, stack, ih, Option.bind_some, Token.onto,
        Option.bind_some, ihbody, Program.append_done]
      rfl

/-- The tokens of a program are read as that program. -/
theorem parse?_tokens (p : Program) : parse? p.tokens = some p := by
  rw [parse?, stack_tokens, Program.append_done]

theorem tokens_append (p q : Program) : (p.append q).tokens = p.tokens ++ q.tokens := by
  induction p with
  | done => rfl
  | print c rest ih | insert reference written rest ih | set name value rest ih =>
      rw [Program.append, Program.tokens, Program.tokens, ih]
      rfl
  | foreach name items body rest _ ih | ifTrue condition body rest _ ih =>
      rw [Program.append, Program.tokens, Program.tokens, ih]
      simp

theorem tokens_printing (text : Text) (p : Program) :
    (Program.printing text p).tokens = prints text ++ p.tokens := by
  induction text with
  | nil => rfl
  | cons c text ih => exact congrArg (Token.print c :: ·) ih

end TableGateway.Velocity
