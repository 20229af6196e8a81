import Mathlib.Algebra.Group.Int.Defs
import Mathlib.Algebra.Group.Nat.Defs
import Mathlib.Data.List.Chain
import TypedConfig.Cursor

namespace TypedConfig

def decimalValue : List Char → Nat
  | [] => 0
  | c :: digits => (c.toNat - '0'.toNat) * 10 ^ digits.length + decimalValue digits

structure Numeral where
  sign : List Char
  digits : List Char
  signed : sign ∈ [[], ['+'], ['-']]
  digits_ne_nil : digits ≠ []
  isDigit : ∀ c ∈ digits, c.isDigit = true

namespace Numeral

def text (n : Numeral) : List Char := n.sign ++ n.digits

def value (n : Numeral) : Int :=
  if n.sign = ['-'] then -(decimalValue n.digits : Int) else decimalValue n.digits

def IsInRange (n : Numeral) : Prop := -2 ^ 63 ≤ n.value ∧ n.value ≤ 2 ^ 63 - 1

/-- What a reading `r` says that takes the numeral when `rest` stands after it. A character that
spoils the numeral comes before its value. -/
structure IsReadBy (n : Numeral) (rest : List Char) (r : Reading) : Prop where
  spoilt : ∀ c ∈ rest.head?, c ∈ ['.', 'e', 'E'] →
    ∃ e, r.outcome = .error e ∧ e.code = some 102 ∧ e.position? = some r.start
  inRange : (∀ c ∈ rest.head?, c ∉ ['.', 'e', 'E']) → n.IsInRange →
    ∃ m : Int64, m.toInt = n.value ∧ r.outcome = .ok (some (.number m))
  outOfRange : (∀ c ∈ rest.head?, c ∉ ['.', 'e', 'E']) → ¬ n.IsInRange →
    ∃ e, r.outcome = .error e ∧ e.code = some 103 ∧ e.position? = some r.start

end Numeral

def IsNumeral (text : List Char) : Prop :=
  ∃ sign digits, text = sign ++ digits ∧ sign ∈ [[], ['+'], ['-']] ∧ digits ≠ [] ∧
    ∀ c ∈ digits, c.isDigit = true

def Token.IsWritten (text : List Char) : Token → Prop
  | name word => text = word.toList ∧ Text.isWord text = true
  | number n => IsNumeral text ∧ Lexeme.signedValue text = n.toInt
  | var => text = "var".toList
  | pipe => text = ['|']
  | openBracket => text = ['[']
  | closeBracket => text = [']']
  | openBrace => text = ['\x7b']
  | closeBrace => text = ['\x7d']
  | comma => text = [',']
  | semicolon => text = [';']
  | colon => text = [':']

/-- Does `rest` begin with the word, and not only with a part of a longer one? -/
def StartsWithWord (word : String) (rest : List Char) : Prop :=
  Text.isWord word.toList = true ∧ ∃ after, rest = word.toList ++ after ∧
    ∀ c ∈ after.head?, Text.isWordCharacter c = false

def StartsWithNumeral (numeral rest : List Char) : Prop :=
  IsNumeral numeral ∧ ∃ after, rest = numeral ++ after ∧ ∀ c ∈ after.head?, c.isDigit = false

def IsGap (text : List Char) : Prop :=
  ∀ c ∈ text, Text.isBlank c = true

def Scan.HasReference (scan : Scan) (name : String) (p : Position) (before rest : List Char) :
    Prop :=
  ∃ earlier gap gap' later, IsGap gap ∧ IsGap gap' ∧
    before = earlier ++ '|' :: gap ∧ rest = name.toList ++ (gap' ++ '|' :: later) ∧
    [⟨.pipe, (Position.ofText earlier).next⟩, ⟨.ofWord name, p⟩,
      ⟨.pipe, (Position.ofText (before ++ name.toList ++ gap')).next⟩] <:+: scan.tokens

def Scan.HasDeclaration (scan : Scan) (name : String) (p : Position) (before : List Char) : Prop :=
  ∃ earlier gap, IsGap gap ∧ before = earlier ++ ("var".toList ++ gap) ∧
    [⟨.var, (Position.ofText earlier).next⟩, ⟨.ofWord name, p⟩] <:+: scan.tokens

def Diagnostic.IsShown (e : Diagnostic) (source : List Char) (p : Position)
    (before rest : List Char) : Prop :=
  match e.problem, e.code with
  | .unknownConstant name _, _ =>
    StartsWithWord name rest ∧ (Scan.ofText source).HasReference name p before rest
  | .tooDeep _ _, some 304 =>
    ∃ (name : String) (depth enclosing : Nat),
      e.hint = some s!"'{name}' is {depth} levels deep and is used {enclosing} levels down" ∧
      StartsWithWord name rest ∧ (Scan.ofText source).HasReference name p before rest
  | .duplicateConstant name _, _ =>
    StartsWithWord name rest ∧ (Scan.ofText source).HasDeclaration name p before
  | .tooDeep _ _, some 209 => rest.head? = some '[' ∨ rest.head? = some '\x7b'
  | .unexpectedToken text _, _ =>
    ∃ t written after, ⟨t, p⟩ ∈ (Scan.ofText source).tokens ∧ text = t.text ∧
      t.IsWritten written ∧ rest = written ++ after
  | .unexpectedCharacter c _, _ => rest.head? = some c
  | .malformed message _, some 102 =>
    ∃ numeral follower, StartsWithNumeral numeral rest ∧ numeral ++ [follower] <+: rest ∧
      message = s!"Invalid number '{String.ofList (numeral ++ [follower])}'"
  | .malformed message _, some 103 =>
    ∃ numeral, StartsWithNumeral numeral rest ∧
      message = s!"Number '{String.ofList numeral}' does not fit in a 64-bit integer"
  | .unexpectedEnd _ _, _ => rest = []
  | _, _ => False

/-- Is the place of the report in the source, and shows the source there what the report says? -/
def Diagnostic.PointsInto (e : Diagnostic) (source : List Char) : Prop :=
  ∃ p before rest, e.position? = some p ∧ StandsAt source p before rest ∧
    e.IsShown source p before rest

namespace Token

/-- A number may have any sign that fits it and any zeros before it. The keyword spells no name. -/
def IsSpelled (text : List Char) : Token → Prop
  | name word => text = word.toList ∧ Text.isWord text = true ∧ word ≠ "var"
  | number n => ∃ numeral : Numeral, text = numeral.text ∧ numeral.value = n.toInt
  | symbol => symbol.IsWritten text

def isRun : Token → Bool
  | name _ | number _ | var => true
  | _ => false

end Token

structure WrittenToken where
  gap : List Char
  text : List Char
  token : Token
  blank : IsGap gap
  spelled : token.IsSpelled text

namespace WrittenToken

def source (t : WrittenToken) : List Char := t.gap ++ t.text

/-- Does a blank part the token from the one before it, where both are words or numbers? -/
def Apart (previous t : WrittenToken) : Prop :=
  previous.token.isRun = true → t.token.isRun = true → t.gap ≠ []

end WrittenToken

structure Transcript where
  tokens : List WrittenToken
  tail : List Char
  blank : IsGap tail
  apart : tokens.IsChain WrittenToken.Apart

def Transcript.source (t : Transcript) : List Char := t.tokens.flatMap WrittenToken.source ++ t.tail

end TypedConfig
