import TypedConfig.Text

namespace TypedConfig

/-- A place in a text: lines count from 1, and a column counts characters on its line. -/
structure Position where
  line : Nat
  column : Nat
deriving DecidableEq

namespace Position

def origin : Position := ⟨1, 0⟩

def step (p : Position) (c : Char) : Position :=
  if c = '\n' then ⟨p.line + 1, 0⟩ else ⟨p.line, p.column + 1⟩

def after (p : Position) (text : List Char) : Position :=
  text.foldl step p

/-- The place of the character that stands next when `p` has been read: columns of characters
count from 1. -/
def next (p : Position) : Position :=
  ⟨p.line, p.column + 1⟩

def text (p : Position) : String :=
  s!"{p.line}:{p.column}"

@[simp] theorem after_nil (p : Position) : p.after [] = p := rfl

@[simp] theorem after_cons (p : Position) (c : Char) (text : List Char) :
    p.after (c :: text) = (p.step c).after text := rfl

theorem after_append (p : Position) (left right : List Char) :
    p.after (left ++ right) = (p.after left).after right :=
  List.foldl_append

end Position

/-- Where a text ends: its last line, and how many characters are on that line. -/
def Position.ofText (text : List Char) : Position :=
  ⟨1 + text.count '\n', (text.reverse.takeWhile (· ≠ '\n')).length⟩

def StandsAt (source : List Char) (p : Position) (before rest : List Char) : Prop :=
  source = before ++ rest ∧ p = (Position.ofText before).next

inductive Problem where
  | malformed (message : String) (position : Position)
  | unexpectedToken (token : String) (position : Position)
  | unexpectedEnd (message : String) (position : Position)
  | unexpectedCharacter (character : Char) (position : Position)
  | tooDeep (limit : Nat) (position : Position)
  | duplicateConstant (name : String) (position : Position)
  | unknownConstant (name : String) (position : Position)
  | unresolved (name : String)
  | invalidName (name : String)
  | markup (message : String)
  | inputOutput (message : String)
deriving DecidableEq

inductive Category where
  | source
  | duplicateConstant
  | unknownConstant
  | emission
  | markup
  | inputOutput
deriving DecidableEq

structure Diagnostic where
  problem : Problem
  hint : Option String
  code : Option Nat
deriving DecidableEq

def Category.name : Category → String
  | .source => "syntax error"
  | .duplicateConstant => "duplicate constant"
  | .unknownConstant => "unknown constant"
  | .emission => "emit error"
  | .markup => "xml error"
  | .inputOutput => "io error"

namespace Problem

def category : Problem → Category
  | malformed .. | unexpectedToken .. | unexpectedEnd .. | unexpectedCharacter .. | tooDeep .. =>
    .source
  | duplicateConstant .. => .duplicateConstant
  | unknownConstant .. => .unknownConstant
  | unresolved .. | invalidName .. => .emission
  | markup .. => .markup
  | inputOutput .. => .inputOutput

def position? : Problem → Option Position
  | malformed _ p | unexpectedToken _ p | unexpectedEnd _ p | unexpectedCharacter _ p
  | tooDeep _ p | duplicateConstant _ p | unknownConstant _ p => some p
  | unresolved _ | invalidName _ | markup _ | inputOutput _ => none

def text : Problem → String
  | malformed message p => s!"Syntax Error at {p.text}: {message}"
  | unexpectedToken token p => s!"Syntax Error: unexpected token {token} at {p.text}"
  | unexpectedEnd message p => s!"Syntax Error: unexpected end of input at {p.text}: {message}"
  | unexpectedCharacter character p =>
    let quoted := String.ofList (Text.shown character)
    s!"Syntax Error: unexpected character '{quoted}' at {p.text}"
  | tooDeep limit p => s!"Syntax Error: nesting deeper than {limit} at {p.text}"
  | duplicateConstant name p => s!"Duplicate Constant '{name}' at {p.text}"
  | unknownConstant name p => s!"Unknown Constant '{name}' at {p.text}"
  | unresolved name => s!"Emit Error: unresolved constant reference '{name}'"
  | invalidName name => s!"Emit Error: '{name}' is not a valid element name"
  | markup message => s!"XML Error: {message}"
  | inputOutput message => s!"IO Error: {message}"

end Problem

namespace Diagnostic

def category (d : Diagnostic) : Category := d.problem.category

def position? (d : Diagnostic) : Option Position := d.problem.position?

def hintText (d : Diagnostic) : String :=
  match d.hint with
  | some hint => s!" Hint: {hint}"
  | none => ""

def codeText (d : Diagnostic) : String :=
  match d.code with
  | some code => s!" Code: {code}"
  | none => ""

def message (d : Diagnostic) : String :=
  s!"[CONFXML] {d.problem.text}{d.hintText}{d.codeText}"

def ofInputOutput (message : String) : Diagnostic :=
  ⟨.inputOutput message, none, some 502⟩

end Diagnostic

def Diagnostic.IsDepth (e : Diagnostic) : Prop := ∃ limit p, e.problem = .tooDeep limit p

inductive Related {ε ε' α β : Type} (S : ε → ε' → Prop) (R : α → β → Prop) :
    Except ε α → Except ε' β → Prop where
  | ok {a : α} {b : β} (h : R a b) : Related S R (.ok a) (.ok b)
  | error {e : ε} {e' : ε'} (h : S e e') : Related S R (.error e) (.error e')

end TypedConfig
