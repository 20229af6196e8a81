import TypedConfig.Proofs.Lexing.Composition
import TypedConfig.Proofs.Lexing.Places
import TypedConfig.Proofs.Lexing.Standing
import TypedConfig.Proofs.Reading.Relocation

namespace TypedConfig

def Ending.relocate (f : Position → Position) : Ending → Ending
  | finish p => finish (f p)
  | fault fault' p => fault fault' (f p)

def Scan.relocate (f : Position → Position) (s : Scan) : Scan :=
  ⟨s.tokens.map (PlacedToken.relocate f), s.ending.relocate f⟩

namespace Cursor

variable {s : Cursor}

theorem scan_shift (base : Position) (h : 1 ≤ s.position.line) :
    (s.shift base).scan = s.scan.relocate base.shift := by
  fun_induction Cursor.scan s with
  | case1 s found =>
    have moved := next_shift base h
    rw [scan_of_end (by rw [moved]; exact found), moved]
    rfl
  | case2 s lexeme found fault reading =>
    have moved := next_shift base h
    rw [scan_of_fault (by rw [moved]; exact found) reading, moved]
    rfl
  | case3 s lexeme found token reading ih =>
    have moved := next_shift base h
    rw [scan_of_token (by rw [moved]; exact found) reading, moved, ih (one_le_line_next h)]
    rfl

theorem head?_places (s : Cursor) : s.scan.places.head? = some s.next.1.start := by
  rw [scan]
  split
  · rfl
  · split <;> rfl

theorem skipBlanks_skipBlanks (s : Cursor) : s.skipBlanks.skipBlanks = s.skipBlanks := by
  cases dropped : s.rest.dropWhile Text.isBlank with
  | nil => simp [skipBlanks, dropped]
  | cons c rest =>
    have visible := Text.not_isBlank_of_dropWhile dropped
    simp [skipBlanks, dropped, visible]

theorem scan_skipBlanks (s : Cursor) : s.skipBlanks.scan = s.scan := by
  have same : s.skipBlanks.next = s.next := by
    unfold next
    rw [skipBlanks_skipBlanks]
  cases found : s.next.1.lexeme with
  | none => rw [scan_of_end found, scan_of_end (by rwa [same]), same]
  | some lexeme =>
    cases reading : lexeme.reading with
    | error fault => rw [scan_of_fault found reading, scan_of_fault (by rwa [same]) reading, same]
    | ok token => rw [scan_of_token found reading, scan_of_token (by rwa [same]) reading, same]

end Cursor

theorem LexicalFault.withLimit_diagnostic (limit : Nat) (fault : LexicalFault) (p : Position) :
    (fault.diagnostic p).withLimit limit = fault.diagnostic p := by
  cases fault <;> rfl

theorem Expectation.withLimit_diagnostic (limit : Nat) (e : Expectation) (found : Option Token)
    (p : Position) : (e.diagnostic found p).withLimit limit = e.diagnostic found p := by
  unfold diagnostic
  split <;> rfl

theorem Draft.document?_relocate (f : Position → Position) (d : Draft) :
    (d.relocate f).document? = d.document?.map (Document.relocate f) := by
  cases d <;> rfl

namespace Session

variable {s fresh : Session} {k : Nat}

/-- Only the room that is left decides what is accepted. -/
theorem accept_of_room (limit : s.limit = fresh.limit + k) (depth : s.depth = fresh.depth + k)
    (d : Draft) (t : PlacedToken) :
    s.accept d t = (fresh.accept d t).mapError (Diagnostic.withLimit s.limit) := by
  have room : s.limit ≤ s.depth + d.containers ↔ fresh.limit ≤ fresh.depth + d.containers := by
    omega
  unfold accept
  simp only [room]
  split
  · rfl
  · cases d.extend? t.token t.position with
    | some next => rfl
    | none =>
      rw [Except.mapError, Expectation.withLimit_diagnostic]

theorem settle_of_room (outlook : s.outlook = fresh.outlook) (d : Draft) (last : Position) :
    (s.settle d last).1 = (fresh.settle d last).1.mapError (Diagnostic.withLimit s.limit) := by
  unfold settle
  rw [outlook]
  split
  · rw [Except.mapError, LexicalFault.withLimit_diagnostic]
  all_goals
    cases d.document? with
    | some document => rfl
    | none => rw [Except.mapError, Expectation.withLimit_diagnostic]

theorem resume_of_room (limit : s.limit = fresh.limit + k) (depth : s.depth = fresh.depth + k)
    (outlook : s.outlook = fresh.outlook) (d : Draft) (last : Position)
    (tokens : List PlacedToken) :
    (s.resume d last tokens).1 =
      (fresh.resume d last tokens).1.mapError (Diagnostic.withLimit s.limit) := by
  induction tokens generalizing d last with
  | nil => exact settle_of_room outlook d last
  | cons t tokens ih =>
    rw [resume_cons, resume_cons, accept_of_room limit depth]
    cases fresh.accept d t with
    | ok next => exact ih next t.position
    | error problem => rfl

theorem settle_relocate (f : Position → Position) {ending : Ending}
    (outlook : s.outlook = .ending (ending.relocate f)) (outlook' : fresh.outlook = .ending ending)
    (d : Draft) (last last' : Position) :
    (s.settle (d.relocate f) last).1 =
      ((fresh.settle d last').1.map (Document.relocate f)).mapError (Diagnostic.relocate f) := by
  unfold settle
  rw [outlook, outlook']
  cases ending with
  | fault fault p =>
    simp only [Ending.relocate, Except.map, Except.mapError, LexicalFault.relocate_diagnostic]
  | finish p =>
    simp only [Ending.relocate, Draft.document?_relocate, Draft.expectation_relocate]
    cases d.document? with
    | some document => rfl
    | none =>
      simp only [Option.map_none, Except.map, Except.mapError, Expectation.relocate_diagnostic]

theorem resume_relocate (f : Position → Position) (limit : s.limit = fresh.limit)
    (depth : s.depth = fresh.depth) {ending : Ending}
    (outlook : s.outlook = .ending (ending.relocate f)) (outlook' : fresh.outlook = .ending ending)
    (d : Draft) (last last' : Position) (tokens : List PlacedToken) :
    (s.resume (d.relocate f) last (tokens.map (PlacedToken.relocate f))).1 =
      ((fresh.resume d last' tokens).1.map (Document.relocate f)).mapError
        (Diagnostic.relocate f) := by
  induction tokens generalizing d last last' with
  | nil => exact settle_relocate f outlook outlook' d last last'
  | cons t tokens ih =>
    have accept : s.accept d t = fresh.accept d t := by
      unfold Session.accept
      rw [limit, depth]
    rw [List.map_cons, resume_cons, resume_cons, accept_relocate, accept]
    cases fresh.accept d t with
    | ok next => exact ih next (f t.position) t.position
    | error problem => rfl

/-- The report of a fresh session in the words of one that lies deeper, at a later place. -/
def reword (f : Position → Position) (limit : Nat) (e : Diagnostic) : Diagnostic :=
  (e.withLimit limit).relocate f

theorem resume_moved (f : Position → Position) (limit : s.limit = fresh.limit + k)
    (depth : s.depth = fresh.depth + k) {ending : Ending}
    (outlook : s.outlook = .ending (ending.relocate f)) (outlook' : fresh.outlook = .ending ending)
    (d : Draft) (last last' : Position) (tokens : List PlacedToken) :
    (s.resume (d.relocate f) last (tokens.map (PlacedToken.relocate f))).1 =
      ((fresh.resume d last' tokens).1.map (Document.relocate f)).mapError (reword f s.limit) := by
  let here : Session := { s with outlook := .ending ending }
  have same : s.limit = here.limit ∧ s.depth = here.depth := ⟨rfl, rfl⟩
  have moved : (s.resume (d.relocate f) last (tokens.map (PlacedToken.relocate f))).1 =
      ((here.resume d last' tokens).1.map (Document.relocate f)).mapError (Diagnostic.relocate f) :=
    resume_relocate f same.1 same.2 outlook rfl d last last' tokens
  have deeper : (here.resume d last' tokens).1 =
      (fresh.resume d last' tokens).1.mapError (Diagnostic.withLimit s.limit) :=
    resume_of_room (s := here) limit depth outlook'.symm d last' tokens
  rw [moved, deeper]
  cases (fresh.resume d last' tokens).1 <;> rfl

end Session

end TypedConfig
