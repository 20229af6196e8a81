import TypedConfig.Document.Draft

namespace TypedConfig

inductive Outlook where
  | ending (ending : Ending)
  | spent (position : Position)
deriving DecidableEq

/-- A source that is being read. `depth` counts the containers that failed runs have left open. -/
structure Session where
  limit : Nat
  depth : Nat
  tokens : List PlacedToken
  outlook : Outlook
deriving DecidableEq

namespace Session

def defaultLimit : Nat := 128

/-- Opens a source. Its first lexeme is read at once, so a fault there is reported here. -/
def start (source : String) (limit : Nat) : Except Diagnostic Session :=
  match Scan.ofText source.toList with
  | ⟨[], .fault fault p⟩ => .error (fault.diagnostic p)
  | scan => .ok ⟨limit, 0, scan.tokens, .ending scan.ending⟩

def tooDeep (limit : Nat) (p : Position) : Diagnostic :=
  ⟨.tooDeep limit p, some "Flatten the value or raise the nesting limit", some 209⟩

def accept (s : Session) (d : Draft) (t : PlacedToken) : Except Diagnostic Draft :=
  if d.awaitsValue && t.token.opensContainer && decide (s.limit ≤ s.depth + d.containers) then
    .error (tooDeep s.limit t.position)
  else
    match d.extend? t.token t.position with
    | some d => .ok d
    | none => .error (d.expectation.diagnostic (some t.token) t.position)

def settle (s : Session) (d : Draft) (last : Position) : Except Diagnostic Document × Session :=
  let left : Session := { s with depth := s.depth + d.containers, tokens := [] }
  match s.outlook with
  | .ending (.fault fault p) => (.error (fault.diagnostic p), { left with outlook := .spent last })
  | .ending (.finish p) | .spent p =>
    match d.document? with
    | some document => (.ok document, left)
    | none => (.error (d.expectation.diagnostic none p), left)

/-- Goes on from the draft `d`, whose last token stands at `last`, with the tokens that wait. -/
def resume (s : Session) (d : Draft) (last : Position) :
    List PlacedToken → Except Diagnostic Document × Session
  | [] => s.settle d last
  | t :: rest =>
    match s.accept d t with
    | .ok d => s.resume d t.position rest
    | .error problem =>
      (.error problem, { s with depth := s.depth + d.containers, tokens := t :: rest })

def read (s : Session) : Except Diagnostic Document × Session :=
  s.resume .start .origin s.tokens

end Session

def Document.parse (source : String) (limit : Nat) : Except Diagnostic Document := do
  let session ← Session.start source limit
  session.read.1

def Token.closesContainer : Token → Bool
  | closeBracket | closeBrace => true
  | _ => false

def Diagnostic.withLimit (limit : Nat) (d : Diagnostic) : Diagnostic :=
  match d.problem with
  | .tooDeep _ p => { d with problem := .tooDeep limit p }
  | _ => d

namespace Session

def openings (tokens : List PlacedToken) : Nat :=
  tokens.countP fun t => t.token.opensContainer

def closings (tokens : List PlacedToken) : Nat :=
  tokens.countP fun t => t.token.closesContainer

def after (s : Session) : Nat → Session
  | 0 => s
  | n + 1 => (s.after n).read.2

/-- The place of what is read ahead: a token, or the end of the source. Nothing is, once a fault has
been reported. -/
def front? (s : Session) : Option Position :=
  match s.tokens, s.outlook with
  | t :: _, _ => some t.position
  | [], .ending (.finish p) => some p
  | [], _ => none

end Session

end TypedConfig
