import TypedConfig.Diagnostic

namespace TypedConfig

inductive Token where
  | name (text : String)
  | number (value : Int64)
  | var
  | pipe
  | openBracket
  | closeBracket
  | openBrace
  | closeBrace
  | comma
  | semicolon
  | colon
deriving DecidableEq

namespace Token

def ofSymbol? (c : Char) : Option Token :=
  if c = '|' then some pipe
  else if c = '[' then some openBracket
  else if c = ']' then some closeBracket
  else if c = '\x7b' then some openBrace
  else if c = '\x7d' then some closeBrace
  else if c = ',' then some comma
  else if c = ';' then some semicolon
  else if c = ':' then some colon
  else none

def ofWord (word : String) : Token :=
  if word = "var" then var else name word

/-- The name that a token can stand for. The keyword may be used as a name. -/
def asName? : Token → Option String
  | name text => some text
  | var => some "var"
  | _ => none

def opensContainer : Token → Bool
  | openBracket | openBrace => true
  | _ => false

def text : Token → String
  | name text => s!"name '{text}'"
  | number value => s!"number {value.toInt}"
  | var => "keyword 'var'"
  | pipe => "'|'"
  | openBracket => "'['"
  | closeBracket => "']'"
  | openBrace => "'\x7b'"
  | closeBrace => "'\x7d'"
  | comma => "','"
  | semicolon => "';'"
  | colon => "':'"

/-- A name token holds a word, and never the keyword, which is a token of its own. -/
def WellSpelled : Token → Prop
  | name text => Text.isWord text.toList = true ∧ text ≠ "var"
  | _ => True

end Token

inductive LexicalFault where
  | bareSign (sign : Char)
  | notInteger (digits : List Char) (follower : Char)
  | outOfRange (digits : List Char)
  | stray (character : Char)
deriving DecidableEq

def LexicalFault.diagnostic (p : Position) : LexicalFault → Diagnostic
  | bareSign sign =>
    ⟨.unexpectedCharacter sign p, some "A sign must be directly followed by digits", some 101⟩
  | notInteger digits follower =>
    let number := String.ofList (digits ++ [follower])
    ⟨.malformed s!"Invalid number '{number}'" p, some "Only integer numbers are supported",
      some 102⟩
  | outOfRange digits =>
    let number := String.ofList digits
    ⟨.malformed s!"Number '{number}' does not fit in a 64-bit integer" p, none, some 103⟩
  | stray character =>
    ⟨.unexpectedCharacter character p, some "Unexpected character in input", some 104⟩

structure Lexeme where
  text : List Char
  reading : Except LexicalFault Token

namespace Lexeme

def isSign (c : Char) : Bool :=
  c = '+' || c = '-'

def spoilsInteger (c : Char) : Bool :=
  c = '.' || c = 'e' || c = 'E'

def signedValue : List Char → Int
  | '-' :: digits => -(Nat.ofDigitChars 10 digits 0 : Int)
  | '+' :: digits => Nat.ofDigitChars 10 digits 0
  | digits => Nat.ofDigitChars 10 digits 0

def fits (n : Int) : Bool :=
  Int64.minValue.toInt ≤ n && n ≤ Int64.maxValue.toInt

/-- What a number is read as. Its text is `written`, and `follower` stands right after it. -/
def readNumber (written : List Char) (follower : Option Char) : Except LexicalFault Token :=
  match follower.filter spoilsInteger with
  | some c => .error (.notInteger written c)
  | none =>
    if fits (signedValue written) then .ok (.number (Int64.ofInt (signedValue written)))
    else .error (.outOfRange written)

def number (sign rest : List Char) : Lexeme :=
  let written := sign ++ rest.takeWhile Char.isDigit
  ⟨written, readNumber written (rest.dropWhile Char.isDigit).head?⟩

def word (rest : List Char) : Lexeme :=
  let written := rest.takeWhile Text.isWordCharacter
  ⟨written, .ok (Token.ofWord (String.ofList written))⟩

def cut (c : Char) (rest : List Char) : Lexeme :=
  match Token.ofSymbol? c with
  | some symbol => ⟨[c], .ok symbol⟩
  | none =>
    if isSign c then
      if rest.head?.any Char.isDigit then number [c] rest else ⟨[c], .error (.bareSign c)⟩
    else if c.isDigit then number [] (c :: rest)
    else if c.isAlpha then word (c :: rest)
    else ⟨[c], .error (.stray c)⟩

theorem cut_text_ne_nil (c : Char) (rest : List Char) : (cut c rest).text ≠ [] := by
  unfold cut
  split
  · simp
  split
  · split <;> simp [number]
  split
  · simp_all [number]
  split
  · simp_all [word, Text.isWordCharacter_of_isAlpha]
  · simp

theorem cut_text_prefix (c : Char) (rest : List Char) : (cut c rest).text <+: c :: rest := by
  unfold cut
  split
  · simp
  split
  · split
    · simp [number, List.takeWhile_prefix]
    · simp
  split
  · exact List.takeWhile_prefix Char.isDigit
  split
  · exact List.takeWhile_prefix Text.isWordCharacter
  · simp

end Lexeme

end TypedConfig
