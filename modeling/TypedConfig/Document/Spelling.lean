import TypedConfig.Cursor
import TypedConfig.Document

namespace TypedConfig

structure Mark where
  token : Token
  position : Option Position
deriving DecidableEq

namespace Mark

def free (token : Token) : Mark := ⟨token, none⟩

def name (text : String) : Mark := ⟨.ofWord text, none⟩

def placedName (text : String) (p : Position) : Mark := ⟨.ofWord text, some p⟩

def Fits (m : Mark) (t : PlacedToken) : Prop :=
  m.token = t.token ∧ ∀ p, m.position = some p → p = t.position

end Mark

mutual

def Value.marks : Value → List Mark
  | .int n => [.free (.number n)]
  | .ref r => [.free .pipe, .placedName r.name r.position, .free .pipe]
  | .array [] => [.free .openBracket, .free .closeBracket]
  | .array (item :: items) => .free .openBracket :: (item.marks ++ Value.itemsMarks items)
  | .dict [] => [.free .openBrace, .free .closeBrace]
  | .dict ((key, value) :: pairs) =>
    .free .openBrace :: .name key :: .free .colon :: (value.marks ++ Value.pairsMarks pairs)

def Value.itemsMarks : List Value → List Mark
  | [] => [.free .closeBracket]
  | item :: items => .free .comma :: (item.marks ++ Value.itemsMarks items)

def Value.pairsMarks : List (String × Value) → List Mark
  | [] => [.free .closeBrace]
  | (key, value) :: pairs =>
    .free .semicolon :: .name key :: .free .colon :: (value.marks ++ Value.pairsMarks pairs)

end

def Declaration.marks (d : Declaration) : List Mark :=
  .free .var :: .placedName d.name d.position :: d.value.marks

def Entry.marks (e : Entry) : List Mark :=
  .name e.name :: e.value.marks

namespace Document

def marks (d : Document) : List Mark :=
  d.constants.flatMap Declaration.marks ++ d.entry.marks

def tokens (d : Document) : List Token :=
  d.marks.map Mark.token

def WrittenAs (d : Document) (tokens : List PlacedToken) : Prop :=
  d.marks.length = tokens.length ∧ ∀ pair ∈ d.marks.zip tokens, pair.1.Fits pair.2

end Document

def Position.Before (p q : Position) : Prop :=
  p.line < q.line ∨ p.line = q.line ∧ p.column < q.column

instance (p q : Position) : Decidable (p.Before q) :=
  inferInstanceAs (Decidable (_ ∨ _))

def Scan.before (s : Scan) (p : Position) : List Token :=
  (s.tokens.filter fun t => t.position.Before p).map PlacedToken.token

def Complete (limit : Nat) (tokens : List Token) : Prop :=
  ∃ d : Document, d.tokens = tokens ∧
    (∀ c ∈ d.constants, c.value.depth ≤ limit) ∧ d.entry.value.depth ≤ limit

def Viable (limit : Nat) (tokens : List Token) : Prop :=
  ∃ more, Complete limit (tokens ++ more)

/-- Is `e` a report that `source` stops being the beginning of a document at `p`? -/
structure Leftmost (source : List Char) (limit : Nat) (e : Diagnostic) (p : Position) : Prop where
  position : e.position? = some p
  viable : Viable limit ((Scan.ofText source).before p)
  token : ∀ text, e.problem = .unexpectedToken text p ∨ e.problem = .tooDeep limit p →
    ∃ t ∈ (Scan.ofText source).tokens, t.position = p ∧
      ¬ Viable limit ((Scan.ofText source).before p ++ [t.token])
  finish : ∀ message, e.problem = .unexpectedEnd message p →
    (Scan.ofText source).ending = .finish p ∧ ¬ Complete limit ((Scan.ofText source).before p)
  lexeme : ∀ code, e.code = some code → 101 ≤ code → code ≤ 104 →
    ∃ fault, (Scan.ofText source).ending = .fault fault p ∧ e = fault.diagnostic p ∧
      ∃ r ∈ (Cursor.ofText source).readings, r.start = p ∧
        ∃ lexeme, r.lexeme = some lexeme ∧ lexeme.reading = .error fault
  kind : (∃ text, e.problem = .unexpectedToken text p) ∨ e.problem = .tooDeep limit p ∨
    (∃ message, e.problem = .unexpectedEnd message p) ∨
    ∃ code, e.code = some code ∧ 101 ≤ code ∧ code ≤ 104

end TypedConfig
