import TypedConfig.Proofs.Lexing.Boundaries
import TypedConfig.Relocate

namespace TypedConfig

namespace Position

theorem next_shift (base p : Position) : (base.shift p).next = base.shift p.next := by
  unfold shift next
  by_cases first : p.line = 1 <;> simp [first, Nat.add_assoc]

theorem one_le_line_after {p : Position} (h : 1 ≤ p.line) (text : List Char) :
    1 ≤ (p.after text).line := by
  induction text generalizing p with
  | nil => exact h
  | cons c text ih =>
    apply ih
    unfold step
    split
    · exact Nat.le_add_left 1 p.line
    · exact h

end Position

theorem LexicalFault.relocate_diagnostic (f : Position → Position) (fault : LexicalFault)
    (p : Position) : (fault.diagnostic p).relocate f = fault.diagnostic (f p) := by
  cases fault <;> rfl

theorem Reading.outcome_shift (base : Position) (r : Reading) :
    (r.shift base).outcome = r.outcome.mapError (.relocate base.shift) := by
  rcases r with ⟨start, _ | ⟨text, fault | token⟩, stop⟩
  · rfl
  · exact congrArg Except.error (fault.relocate_diagnostic base.shift start).symm
  · rfl

namespace Cursor

def shift (base : Position) (s : Cursor) : Cursor :=
  ⟨s.rest, base.shift s.position⟩

variable {s : Cursor}

theorem skipBlanks_shift (base : Position) (h : 1 ≤ s.position.line) :
    (s.shift base).skipBlanks = s.skipBlanks.shift base := by
  unfold skipBlanks shift
  rw [Position.shift_after base h]

theorem next_shift (base : Position) (h : 1 ≤ s.position.line) :
    (s.shift base).next = (s.next.1.shift base, s.next.2.shift base) := by
  have line : 1 ≤ s.skipBlanks.position.line := Position.one_le_line_after h _
  unfold next
  rw [skipBlanks_shift base h]
  cases skipped : s.skipBlanks with
  | mk rest position =>
    rw [skipped] at line
    cases rest with
    | nil => simp [shift, Reading.shift, Position.next_shift]
    | cons c rest =>
      simp [shift, Reading.shift, advance, Position.next_shift, Position.shift_after base line]

theorem one_le_line_next (h : 1 ≤ s.position.line) : 1 ≤ s.next.2.position.line := by
  have line : 1 ≤ s.skipBlanks.position.line := Position.one_le_line_after h _
  unfold next
  split <;> rename_i skipped <;> rw [skipped] at line
  · exact line
  · exact Position.one_le_line_after line _

end Cursor

namespace Cursor

variable {s s' : Cursor}

def append (s : Cursor) (tail : List Char) : Cursor :=
  ⟨s.rest ++ tail, s.position⟩

theorem next_append {lexeme : Lexeme} {tail : List Char} (found : s.next.1.lexeme = some lexeme)
    (ends : EndsLexeme tail) : (s.append tail).next = (s.next.1, s.next.2.append tail) := by
  obtain ⟨text, p⟩ := s
  rcases gap_or_standsBefore ⟨text, p⟩ with ⟨-, nothing⟩ |
    ⟨gap, first, rest, blank, stands, split⟩
  · rw [nothing] at found
    cases found
  · simp only at split
    rw [append, split, next_of_standsBefore blank stands, List.append_assoc, List.append_assoc,
      next_of_standsBefore blank (stands.append ends)]
    rfl

theorem isGap_of_end (s : Cursor) (found : s.next.1.lexeme = none) : IsGap s.rest := by
  rcases s.next_cases with ⟨blank, -, -⟩ | ⟨_, c, rest, _, -, -, -, -, first, -⟩
  · exact blank
  · rw [first] at found
    cases found

theorem after_rest_next (s : Cursor) :
    s.next.2.position.after s.next.2.rest = s.position.after s.rest := by
  rcases s.next_cases with ⟨-, -, left⟩ | ⟨_, c, rest, _, split, -, -, text, -, left⟩
  · rw [left]
    rfl
  · rw [left, split, text, ← Position.after_append, List.append_assoc]

theorem readings_congr (h : s.next = s'.next) : s.readings = s'.readings := by
  cases found : s.next.1.lexeme with
  | none =>
    have found' : s'.next.1.lexeme = none := by rwa [← h]
    rw [readings_of_end found, readings_of_end found', h]
  | some lexeme =>
    have found' : s'.next.1.lexeme = some lexeme := by rwa [← h]
    rw [readings_of_lexeme found, readings_of_lexeme found', h]

theorem readings_append (s : Cursor) {gap : List Char} (blank : IsGap gap) (nonempty : gap ≠ [])
    (rest : List Char) :
    ∃ steps finish, s.readings = steps ++ [finish] ∧
      (∀ r ∈ steps, r.lexeme ≠ none) ∧ finish.lexeme = none ∧
      (s.append (gap ++ rest)).readings =
        steps ++ readings ⟨rest, s.position.after (s.rest ++ gap)⟩ := by
  fun_induction readings s with
  | case1 s found =>
    -- What is left of the first text are blanks, which the gap goes on.
    have all : IsGap (s.rest ++ gap) :=
      List.forall_mem_append.mpr ⟨s.isGap_of_end found, blank⟩
    refine ⟨[], s.next.1, rfl, by simp, found, readings_congr ?_⟩
    rw [append, ← List.append_assoc, next_of_gap all]
  | case2 s lexeme found ih =>
    obtain ⟨steps, finish, whole, inside, ending, later⟩ := ih
    have step := next_append found (blank.endsLexeme_append nonempty rest)
    refine ⟨s.next.1 :: steps, finish, by rw [whole]; rfl, ?_, ending, ?_⟩
    · exact List.forall_mem_cons.mpr ⟨by simp [found], inside⟩
    · rw [readings_of_lexeme (by rw [step]; exact found), step, later, Position.after_append,
        after_rest_next, ← Position.after_append]
      rfl

theorem readings_shift (base : Position) (h : 1 ≤ s.position.line) :
    (s.shift base).readings = s.readings.map (Reading.shift base) := by
  fun_induction readings s with
  | case1 s found =>
    have moved := next_shift base h
    rw [readings_of_end (by rw [moved]; exact found), moved]
    rfl
  | case2 s lexeme found ih =>
    have moved := next_shift base h
    rw [readings_of_lexeme (by rw [moved]; exact found), moved, ih (one_le_line_next h)]
    rfl

end Cursor

/-- Of two texts with a gap between them, the first is read as by itself up to its end, and then the
second as by itself, with its places moved to where the gap ends. -/
theorem reading_is_compositional {gap : List Char} (blank : IsGap gap) (nonempty : gap ≠ [])
    (first second : List Char) :
    ∃ steps finish, (Cursor.ofText first).readings = steps ++ [finish] ∧
      (∀ r ∈ steps, r.outcome ≠ .ok none) ∧ finish.outcome = .ok none ∧
      (Cursor.ofText (first ++ gap ++ second)).readings =
        steps ++ (Cursor.ofText second).readings.map (.shift (.ofText (first ++ gap))) ∧
      (Cursor.ofText (first ++ gap ++ second)).readings.map Reading.outcome =
        steps.map Reading.outcome ++ (Cursor.ofText second).readings.map fun r =>
          r.outcome.mapError (.relocate (Position.ofText (first ++ gap)).shift) := by
  obtain ⟨steps, finish, whole, inside, ending, later⟩ :=
    (Cursor.ofText first).readings_append blank nonempty second
  have place : Cursor.mk second (Position.origin.after (first ++ gap)) =
      (Cursor.ofText second).shift (.ofText (first ++ gap)) := by
    rw [Position.after_origin]
    rfl
  have line : 1 ≤ (Cursor.ofText second).position.line := Nat.le_refl 1
  have all : (Cursor.ofText (first ++ gap ++ second)).readings =
      steps ++ (Cursor.ofText second).readings.map (.shift (.ofText (first ++ gap))) := by
    rw [← Cursor.readings_shift _ line, ← place, List.append_assoc]
    exact later
  refine ⟨steps, finish, whole, ?_, Reading.outcome_eq_ok_none_iff.mpr ending, all, ?_⟩
  · intro r member nothing
    exact inside r member (Reading.outcome_eq_ok_none_iff.mp nothing)
  · rw [all, List.map_append, List.map_map]
    exact congrArg _ (List.map_congr_left fun r _ => r.outcome_shift _)

theorem reading_is_compositional_between_faults :
    IsGap ['\n', '\t'] ∧ ['\n', '\t'] ≠ [] ∧
      (Cursor.ofText "7.\n\t-@".toList).readings.map Reading.outcome =
        [.error ((LexicalFault.notInteger ['7'] '.').diagnostic ⟨1, 1⟩),
          .error ((LexicalFault.stray '.').diagnostic ⟨1, 2⟩),
          .error ((LexicalFault.bareSign '-').diagnostic ⟨2, 2⟩),
          .error ((LexicalFault.stray '@').diagnostic ⟨2, 3⟩), .ok none] := by
  have blank : IsGap ['\n', '\t'] := List.all_eq_true.mp rfl
  have nonempty : ['\n', '\t'] ≠ [] := by decide
  obtain ⟨steps, finish, whole, -, ending, -, all⟩ :=
    reading_is_compositional blank nonempty "7.".toList "-@".toList
  have first : (Cursor.ofText "7.".toList).readings.map Reading.outcome =
      [.error ((LexicalFault.notInteger ['7'] '.').diagnostic ⟨1, 1⟩),
        .error ((LexicalFault.stray '.').diagnostic ⟨1, 2⟩)] ++ [.ok none] := by
    rw [Cursor.readings_of_lexeme rfl, Cursor.readings_of_lexeme rfl, Cursor.readings_of_end rfl]
    rfl
  have second : (Cursor.ofText "-@".toList).readings.map
      (fun r => r.outcome.mapError (.relocate (Position.ofText "7.\n\t".toList).shift)) =
      [.error ((LexicalFault.bareSign '-').diagnostic ⟨2, 2⟩),
        .error ((LexicalFault.stray '@').diagnostic ⟨2, 3⟩), .ok none] := by
    rw [Cursor.readings_of_lexeme rfl, Cursor.readings_of_lexeme rfl, Cursor.readings_of_end rfl]
    rfl
  rw [whole, List.map_append, List.map_singleton, ending] at first
  refine ⟨blank, nonempty, all.trans ?_⟩
  rw [List.append_cancel_right first]
  exact congrArg _ second

end TypedConfig
