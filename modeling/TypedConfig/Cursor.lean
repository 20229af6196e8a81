import TypedConfig.Lexeme

namespace TypedConfig

structure Cursor where
  rest : List Char
  position : Position

/-- One reading: the lexeme that was found, where its first character stands, and the place after
it. There is no lexeme at the end of the source. -/
structure Reading where
  start : Position
  lexeme : Option Lexeme
  stop : Position

namespace Cursor

def ofText (source : List Char) : Cursor := ⟨source, .origin⟩

def advance (s : Cursor) (n : Nat) : Cursor :=
  ⟨s.rest.drop n, s.position.after (s.rest.take n)⟩

def skipBlanks (s : Cursor) : Cursor :=
  ⟨s.rest.dropWhile Text.isBlank, s.position.after (s.rest.takeWhile Text.isBlank)⟩

def next (s : Cursor) : Reading × Cursor :=
  match s.skipBlanks with
  | ⟨[], position⟩ => (⟨position.next, none, position⟩, ⟨[], position⟩)
  | ⟨c :: rest, position⟩ =>
    let lexeme := Lexeme.cut c rest
    let after := advance ⟨c :: rest, position⟩ lexeme.text.length
    (⟨position.next, some lexeme, after.position⟩, after)

theorem length_skipBlanks_le (s : Cursor) : s.skipBlanks.rest.length ≤ s.rest.length :=
  (List.dropWhile_suffix Text.isBlank).length_le

theorem length_next_lt {s : Cursor} {lexeme : Lexeme} (h : s.next.1.lexeme = some lexeme) :
    s.next.2.rest.length < s.rest.length := by
  have skipped := s.length_skipBlanks_le
  unfold next at h ⊢
  split at h
  · cases h
  next c rest position hs =>
    have nonempty := List.length_pos_iff.2 (Lexeme.cut_text_ne_nil c rest)
    simp only [hs, advance, List.length_drop, List.length_cons] at skipped ⊢
    omega

def readings (s : Cursor) : List Reading :=
  match _h : s.next.1.lexeme with
  | none => [s.next.1]
  | some _ => s.next.1 :: s.next.2.readings
termination_by s.rest.length
decreasing_by exact length_next_lt ‹_›

end Cursor

structure PlacedToken where
  token : Token
  position : Position
deriving DecidableEq

/-- Why there are no more tokens: the source is at its end, or a lexeme is no token. The place is
that of the end or of the lexeme. -/
inductive Ending where
  | finish (position : Position)
  | fault (fault : LexicalFault) (position : Position)
deriving DecidableEq

structure Scan where
  tokens : List PlacedToken
  ending : Ending
deriving DecidableEq

def Scan.cons (t : PlacedToken) (s : Scan) : Scan :=
  ⟨t :: s.tokens, s.ending⟩

def Cursor.scan (s : Cursor) : Scan :=
  match _h : s.next.1.lexeme with
  | none => ⟨[], .finish s.next.1.start⟩
  | some lexeme =>
    match lexeme.reading with
    | .error fault => ⟨[], .fault fault s.next.1.start⟩
    | .ok token => s.next.2.scan.cons ⟨token, s.next.1.start⟩
termination_by s.rest.length
decreasing_by exact length_next_lt ‹_›

def Scan.ofText (source : List Char) : Scan :=
  (Cursor.ofText source).scan

namespace Cursor

def after (s : Cursor) : Nat → Cursor
  | 0 => s
  | n + 1 => (s.after n).next.2

def reading (s : Cursor) (n : Nat) : Reading :=
  (s.after n).next.1

def piece (s : Cursor) (n : Nat) : List Char :=
  (s.after n).rest.take ((s.after n).rest.length - (s.after (n + 1)).rest.length)

def taken (s : Cursor) (n : Nat) : List Char :=
  (List.range n).flatMap s.piece

end Cursor

def Reading.outcome (r : Reading) : Except Diagnostic (Option Token) :=
  match r.lexeme with
  | none => .ok none
  | some lexeme =>
    match lexeme.reading with
    | .ok token => .ok (some token)
    | .error fault => .error (fault.diagnostic r.start)

theorem Reading.outcome_eq_ok_none_iff {r : Reading} : r.outcome = .ok none ↔ r.lexeme = none := by
  rcases r with ⟨start, _ | ⟨text, fault | token⟩, stop⟩ <;> simp [outcome]

theorem Reading.outcome_eq_ok_some_iff {r : Reading} {t : Token} :
    r.outcome = .ok (some t) ↔ ∃ text, r.lexeme = some ⟨text, .ok t⟩ := by
  rcases r with ⟨start, _ | ⟨text, fault | token⟩, stop⟩ <;> simp [outcome]

/-- Does the reading report the piece that it has taken after `before`? A piece is blanks and then
one lexeme, which only the end of the source does without. -/
def Reading.Reports (r : Reading) (before piece : List Char) : Prop :=
  ∃ blanks lexeme, piece = blanks ++ lexeme ∧
    (∀ c ∈ blanks, Text.isBlank c = true) ∧
    (∀ c ∈ lexeme, Text.isBlank c = false ∧ c ≠ '\n') ∧
    r.lexeme.map Lexeme.text = (if lexeme = [] then none else some lexeme) ∧
    r.start = (Position.ofText (before ++ blanks)).next ∧
    r.stop = Position.ofText (before ++ blanks ++ lexeme)

end TypedConfig
