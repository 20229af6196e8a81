import TypedConfig.Cursor
import TypedConfig.Document

namespace TypedConfig

inductive Expectation where
  | entryName
  | endOfInput
  | itemSeparator
  | pairSeparator
  | key
  | keyColon
  | value
  | constantName
  | closingPipe
deriving DecidableEq

namespace Expectation

def text : Expectation → String
  | entryName => "config entry name"
  | endOfInput => "end of input"
  | itemSeparator => "',' or ']'"
  | pairSeparator => "';' or '\x7d'"
  | key => "dictionary key"
  | keyColon => Token.colon.text
  | value => "a value"
  | constantName => "constant name after '|'"
  | closingPipe => Token.pipe.text

/-- Advice for the writer of the source. A bare name in the place of a value is most likely meant as
a reference. -/
def advice? (e : Expectation) (found : Option Token) : Option String :=
  match e, found with
  | endOfInput, _ => some "A document holds exactly one config entry, after all 'var' declarations"
  | itemSeparator, _ => some "Array items are separated by commas"
  | pairSeparator, _ => some "Dictionary pairs are separated by semicolons"
  | keyColon, _ => some "Dictionary pairs are written as key: value"
  | value, some (.name _) => some "Constant references are written as |NAME|"
  | closingPipe, _ => some "Close the reference as |NAME|"
  | _, _ => none

def code : Expectation → Nat
  | entryName => 203
  | endOfInput => 205
  | itemSeparator => 206
  | pairSeparator => 207
  | key | keyColon => 208
  | value => 210
  | constantName | closingPipe => 211

/-- The report that `found` stands at `p`, with `none` for the end of the source. -/
def diagnostic (e : Expectation) (found : Option Token) (p : Position) : Diagnostic :=
  let expected := s!"Expected {e.text}"
  match found, e.advice? found with
  | none, advice => ⟨.unexpectedEnd expected p, advice, some e.code⟩
  | some token, none => ⟨.unexpectedToken token.text p, some expected, some e.code⟩
  | some token, some advice =>
    ⟨.unexpectedToken token.text p, some s!"{expected}. {advice}", some e.code⟩

end Expectation

inductive Frame where
  | array (items : List Value)
  | dict (pairs : List (String × Value)) (key : String)

/-- The point of reading within a value, with what is known of the innermost container or of the
reference there. -/
inductive Place where
  | value
  | firstItem
  | nextItem (items : List Value)
  | firstKey
  | key (pairs : List (String × Value))
  | colon (pairs : List (String × Value)) (key : String)
  | nextPair (pairs : List (String × Value))
  | refName
  | refClose (reference : Reference)

/-- A value as far as it has been read: the point of reading, and the containers around it from the
innermost to the outermost. -/
structure ValueDraft where
  frames : List Frame
  place : Place

inductive Progress where
  | more (draft : ValueDraft)
  | done (value : Value)

namespace Place

def containers : Place → Nat
  | value | refName | refClose _ => 0
  | firstItem | nextItem _ | firstKey | key _ | colon _ _ | nextPair _ => 1

def awaitsValue : Place → Bool
  | value | firstItem => true
  | _ => false

def expectation : Place → Expectation
  | value | firstItem => .value
  | nextItem _ => .itemSeparator
  | firstKey | key _ => .key
  | colon _ _ => .keyColon
  | nextPair _ => .pairSeparator
  | refName => .constantName
  | refClose _ => .closingPipe

end Place

def Progress.ofValue (v : Value) : List Frame → Progress
  | [] => .done v
  | .array items :: frames => .more ⟨frames, .nextItem (items ++ [v])⟩
  | .dict pairs key :: frames => .more ⟨frames, .nextPair (pairs ++ [(key, v)])⟩

namespace ValueDraft

def start : ValueDraft := ⟨[], .value⟩

def containers (d : ValueDraft) : Nat :=
  d.frames.length + d.place.containers

def startValue? (frames : List Frame) (t : Token) : Option Progress :=
  match t with
  | .number n => some (.ofValue (.int n) frames)
  | .openBracket => some (.more ⟨frames, .firstItem⟩)
  | .openBrace => some (.more ⟨frames, .firstKey⟩)
  | .pipe => some (.more ⟨frames, .refName⟩)
  | _ => none

def readKey? (frames : List Frame) (pairs : List (String × Value)) (t : Token) : Option Progress :=
  t.asName?.map fun key => .more ⟨frames, .colon pairs key⟩

def extend? (d : ValueDraft) (t : Token) (p : Position) : Option Progress :=
  match d.place, t with
  | .value, t => startValue? d.frames t
  | .firstItem, .closeBracket => some (.ofValue (.array []) d.frames)
  | .firstItem, t => startValue? (.array [] :: d.frames) t
  | .nextItem items, .comma => some (.more ⟨.array items :: d.frames, .value⟩)
  | .nextItem items, .closeBracket => some (.ofValue (.array items) d.frames)
  | .firstKey, .closeBrace => some (.ofValue (.dict []) d.frames)
  | .firstKey, t => readKey? d.frames [] t
  | .key pairs, t => readKey? d.frames pairs t
  | .colon pairs key, .colon => some (.more ⟨.dict pairs key :: d.frames, .value⟩)
  | .nextPair pairs, .semicolon => some (.more ⟨d.frames, .key pairs⟩)
  | .nextPair pairs, .closeBrace => some (.ofValue (.dict pairs) d.frames)
  | .refName, t => t.asName?.map fun name => .more ⟨d.frames, .refClose ⟨name, p⟩⟩
  | .refClose reference, .pipe => some (.ofValue (.ref reference) d.frames)
  | _, _ => none

end ValueDraft

inductive Subject where
  | declaration (name : String) (position : Position)
  | entry (name : String)

inductive Draft where
  | preamble (constants : List Declaration)
  /-- The word `var` has been read: it starts a declaration, or it is the name of the entry. -/
  | keyword (constants : List Declaration)
  | value (constants : List Declaration) (subject : Subject) (value : ValueDraft)
  | complete (document : Document)

namespace Draft

def start : Draft := preamble []

def ofProgress (constants : List Declaration) (subject : Subject) : Progress → Draft
  | .more draft => value constants subject draft
  | .done v =>
    match subject with
    | .declaration name position => preamble (constants ++ [⟨name, v, position⟩])
    | .entry name => complete ⟨constants, ⟨name, v⟩⟩

/-- Takes the token `t` that stands at `p`, unless no document goes on with it. -/
def extend? (d : Draft) (t : Token) (p : Position) : Option Draft :=
  match d, t with
  | preamble constants, .var => some (keyword constants)
  | preamble constants, .name name => some (value constants (.entry name) .start)
  | preamble _, _ => none
  | keyword constants, t =>
    match t.asName? with
    | some name => some (value constants (.declaration name p) .start)
    | none => (ValueDraft.start.extend? t p).map (ofProgress constants (.entry "var"))
  | value constants subject draft, t => (draft.extend? t p).map (ofProgress constants subject)
  | complete _, _ => none

def containers : Draft → Nat
  | value _ _ draft => draft.containers
  | preamble _ | keyword _ | complete _ => 0

def awaitsValue : Draft → Bool
  | keyword _ => true
  | value _ _ draft => draft.place.awaitsValue
  | preamble _ | complete _ => false

def expectation : Draft → Expectation
  | preamble _ => .entryName
  | keyword _ => .value
  | value _ _ draft => draft.place.expectation
  | complete _ => .endOfInput

def document? : Draft → Option Document
  | complete document => some document
  | _ => none

end Draft

end TypedConfig
