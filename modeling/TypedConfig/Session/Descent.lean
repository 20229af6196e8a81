import TypedConfig.Session

namespace TypedConfig

inductive Ahead where
  | token (token : Token)
  | finish
  | nothing
deriving DecidableEq

/-- The state of a descent. `place` is that of what is read ahead, or of the last token before a
fault. -/
structure Reader where
  limit : Nat
  depth : Nat
  ahead : Ahead
  place : Position
  rest : Cursor

inductive Operation where
  | enter
  | take
  | leave

namespace Reader

def fetch (r : Reader) : Except Diagnostic Unit × Reader :=
  let (reading, rest) := r.rest.next
  match reading.outcome with
  | .ok (some t) => (.ok (), { r with ahead := .token t, place := reading.start, rest })
  | .ok none => (.ok (), { r with ahead := .finish, place := reading.start, rest })
  | .error fault => (.error fault, { r with ahead := .nothing, rest })

def perform (r : Reader) : Operation → Except Diagnostic Unit × Reader
  | .enter =>
    if r.limit ≤ r.depth then (.error (Session.tooDeep r.limit r.place), r)
    else (.ok (), { r with depth := r.depth + 1 })
  | .take =>
    match r.ahead with
    | .token _ => r.fetch
    | .finish => (.ok (), { r with ahead := .nothing })
    | .nothing =>
      (.error ⟨.unexpectedEnd "Unexpected end of input" r.rest.position, none, some 201⟩, r)
  | .leave => (.ok (), { r with depth := r.depth - 1 })

def found? (r : Reader) : Option Token :=
  match r.ahead with
  | .token t => some t
  | .finish | .nothing => none

/-- The token after the one ahead. A fault there is no concern yet. -/
def second? (r : Reader) : Option Token :=
  match r.rest.next.1.outcome with
  | .ok t => t
  | .error _ => none

def unexpected (r : Reader) (expected : String) (advice : Option String) (code : Nat) :
    Diagnostic :=
  match r.ahead, advice with
  | .token t, some advice =>
    ⟨.unexpectedToken t.text r.place, some s!"Expected {expected}. {advice}", some code⟩
  | .token t, none => ⟨.unexpectedToken t.text r.place, some s!"Expected {expected}", some code⟩
  | .finish, advice | .nothing, advice =>
    ⟨.unexpectedEnd s!"Expected {expected}" r.place, advice, some code⟩

end Reader

structure Moment where
  operation : Operation
  before : Reader

structure Log where
  reader : Reader
  moments : List Moment

/-- A call of the descent does not come back if the bound on the calls inside it is too small. -/
abbrev Descent := ExceptT Diagnostic (StateT Log Option)

namespace Descent

def perform (o : Operation) : Descent Unit := fun log =>
  let (outcome, reader) := log.reader.perform o
  some (outcome, ⟨reader, log.moments ++ [⟨o, log.reader⟩]⟩)

def reader : Descent Reader := return (← get).reader

def refuse {α : Type} (e : Expectation) : Descent α := do
  let r ← reader
  throw (r.unexpected e.text (e.advice? r.found?) e.code)

def name (expected : String) (code : Nat) : Descent (String × Position) := do
  let r ← reader
  match r.found?.bind Token.asName? with
  | some name =>
    perform .take
    return (name, r.place)
  | none => throw (r.unexpected expected none code)

def expect (t : Token) (e : Expectation) : Descent Unit := do
  if (← reader).found? = some t then perform .take else refuse e

def reference : Descent Value := do
  perform .take
  let (name, place) ← name Expectation.constantName.text Expectation.constantName.code
  expect .pipe .closingPipe
  return .ref ⟨name, place⟩

def container (close : Token) (empty : Value) (contents : Descent Value) : Descent Value := do
  perform .enter
  perform .take
  if (← reader).found? = some close then
    perform .take
    perform .leave
    return empty
  else
    contents

/-- What a container holds after a part of it has been read, which makes it `read` if `close` comes
now. -/
def further (separator close : Token) (e : Expectation) (read : Value) (more : Descent Value) :
    Descent Value := do
  let r ← reader
  if r.found? = some separator then
    perform .take
    more
  else if r.found? = some close then
    perform .take
    perform .leave
    return read
  else
    refuse e

def pair (value : Descent Value) : Descent (String × Value) := do
  let (key, _) ← name Expectation.key.text Expectation.key.code
  expect .colon .keyColon
  return (key, ← value)

def beyondBound {α : Type} : Descent α := fun _ => none

-- The number is a bound on how many calls may be inside each other.

mutual

def value : Nat → Descent Value
  | 0 => beyondBound
  | n + 1 => do
    match (← reader).found? with
    | some .openBracket => container .closeBracket (.array []) (items n [])
    | some .openBrace => container .closeBrace (.dict []) (pairs n [])
    | some .pipe => reference
    | some (.number i) =>
      perform .take
      return .int i
    | _ => refuse .value

def items : Nat → List Value → Descent Value
  | 0, _ => beyondBound
  | n + 1, before => do
    let read := before ++ [← value n]
    further .comma .closeBracket .itemSeparator (.array read) (items n read)

def pairs : Nat → List (String × Value) → Descent Value
  | 0, _ => beyondBound
  | n + 1, before => do
    let read := before ++ [← pair (value n)]
    further .semicolon .closeBrace .pairSeparator (.dict read) (pairs n read)

end

def declaration (n : Nat) : Descent Declaration := do
  perform .take
  let (name, place) ← name "constant name after 'var'" 204
  return ⟨name, ← value n, place⟩

/-- The keyword opens a declaration only when a name follows. -/
def declarations : Nat → List Declaration → Descent (List Declaration)
  | 0, _ => beyondBound
  | n + 1, before => do
    let r ← reader
    if r.found? = some .var ∧ (r.second?.bind Token.asName?).isSome = true then
      declarations n (before ++ [← declaration n])
    else
      return before

def document (n : Nat) : Descent Document := do
  let constants ← declarations n []
  let (name, _) ← name Expectation.entryName.text Expectation.entryName.code
  let value ← value n
  if (← reader).ahead = .finish then return ⟨constants, ⟨name, value⟩⟩ else refuse .endOfInput

end Descent

namespace Reader

def start (source : String) (limit : Nat) : Except Diagnostic Reader :=
  let (outcome, r) := fetch ⟨limit, 0, .nothing, .origin, .ofText source.toList⟩
  outcome.map fun _ => r

def left (r : Reader) : Nat :=
  match r.ahead with
  | .token _ => r.rest.rest.length + 1
  | .finish | .nothing => 0

/-- Reads a document. No more than two calls are made inside each other before a token is taken, so
this bound is enough. -/
def read (r : Reader) : Option (Except Diagnostic Document × Log) :=
  Descent.document (2 * r.left + 1) ⟨r, []⟩

def after (r : Reader) : Nat → Option Reader
  | 0 => some r
  | n + 1 => (r.after n).bind fun r => r.read.map fun result => result.2.reader

def waiting (r : Reader) : List PlacedToken :=
  match r.ahead with
  | .token t => ⟨t, r.place⟩ :: r.rest.scan.tokens
  | .finish | .nothing => []

def outlook (r : Reader) : Outlook :=
  match r.ahead with
  | .token _ => .ending r.rest.scan.ending
  | .finish => .ending (.finish r.place)
  | .nothing => .spent r.place

def session (r : Reader) : Session := ⟨r.limit, r.depth, r.waiting, r.outlook⟩

end Reader

def Moment.InOrder (limit : Nat) (m : Moment) : Prop :=
  m.before.depth ≤ limit ∧
    match m.operation with
    | .enter => True
    | .take => ∃ t, m.before.ahead = .token t
    | .leave => 0 < m.before.depth

end TypedConfig
