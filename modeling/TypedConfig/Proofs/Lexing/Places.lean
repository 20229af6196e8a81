import TypedConfig.Document.Spelling

namespace TypedConfig

namespace Position

theorem Before.trans {p q r : Position} (h : p.Before q) (h' : q.Before r) : p.Before r := by
  unfold Before at *
  omega

theorem Before.asymm {p q : Position} (h : p.Before q) : ¬ q.Before p := by
  unfold Before at *
  omega

theorem not_before_self (p : Position) : ¬ p.Before p := by
  unfold Before
  omega

theorem next_before_step (p : Position) (c : Char) : p.next.Before (p.step c).next := by
  unfold Before next step
  split <;> simp

theorem Before.after {p q : Position} (h : p.Before q.next) (text : List Char) :
    p.Before (q.after text).next := by
  induction text generalizing q with
  | nil => exact h
  | cons c text ih => exact ih (h.trans (next_before_step q c))

theorem next_before_after (p : Position) {text : List Char} (h : text ≠ []) :
    p.next.Before (p.after text).next := by
  cases text with
  | nil => exact absurd rfl h
  | cons c text => exact (next_before_step p c).after text

end Position

def Ending.position : Ending → Position
  | finish p => p
  | fault _ p => p

def Scan.places (s : Scan) : List Position :=
  s.tokens.map PlacedToken.position ++ [s.ending.position]

theorem Scan.places_cons (t : PlacedToken) (s : Scan) :
    (s.cons t).places = t.position :: s.places := rfl

namespace Cursor

theorem start_next (s : Cursor) : s.next.1.start = s.skipBlanks.position.next := by
  unfold next
  split <;> rename_i skipped <;> rw [skipped]

theorem before_start {s : Cursor} {p : Position} (h : p.Before s.position.next) :
    p.Before s.next.1.start := by
  rw [start_next]
  exact h.after _

theorem start_before_next {s : Cursor} {lexeme : Lexeme} (h : s.next.1.lexeme = some lexeme) :
    s.next.1.start.Before s.next.2.position.next := by
  unfold next at h ⊢
  split at h
  · cases h
  · rename_i c rest position skipped
    cases h
    have whole : (c :: rest).take (Lexeme.cut c rest).text.length = (Lexeme.cut c rest).text :=
      (List.prefix_iff_eq_take.mp (Lexeme.cut_text_prefix c rest)).symm
    have moved : position.after ((c :: rest).take (Lexeme.cut c rest).text.length) =
        position.after (Lexeme.cut c rest).text := congrArg position.after whole
    simp only [advance, moved]
    exact position.next_before_after (Lexeme.cut_text_ne_nil c rest)

theorem scan_after (s : Cursor) {p : Position} (h : p.Before s.position.next) :
    ∀ q ∈ s.scan.places, p.Before q := by
  fun_induction Cursor.scan s with
  | case1 s found => simpa [Scan.places, Ending.position] using before_start h
  | case2 s lexeme found fault reading =>
    simpa [Scan.places, Ending.position] using before_start h
  | case3 s lexeme found token reading ih =>
    have first := before_start h
    intro q member
    rw [Scan.places_cons] at member
    rcases List.mem_cons.mp member with rfl | member
    · exact first
    · exact ih (first.trans (start_before_next found)) q member

theorem scan_increasing (s : Cursor) : s.scan.places.Pairwise Position.Before := by
  fun_induction Cursor.scan s with
  | case1 => exact List.pairwise_singleton _ _
  | case2 => exact List.pairwise_singleton _ _
  | case3 s lexeme found token reading ih =>
    rw [Scan.places_cons]
    exact .cons (s.next.2.scan_after (start_before_next found)) ih

/-- A scan stops at a fault where a lexeme reads as that fault. -/
theorem exists_reading_of_scan {s : Cursor} {fault : LexicalFault} {p : Position}
    (h : s.scan.ending = .fault fault p) :
    ∃ r ∈ s.readings, r.start = p ∧
      ∃ lexeme, r.lexeme = some lexeme ∧ lexeme.reading = .error fault := by
  fun_induction Cursor.scan s with
  | case1 s found => cases h
  | case2 s lexeme found fault' reading =>
    cases h
    rw [readings, found]
    exact ⟨s.next.1, List.mem_cons_self, rfl, lexeme, found, reading⟩
  | case3 s lexeme found token reading ih =>
    obtain ⟨r, member, faulty⟩ := ih h
    rw [readings, found]
    exact ⟨r, List.mem_cons_of_mem s.next.1 member, faulty⟩

end Cursor

/-- The place where the rest of a scan starts divides its tokens. -/
theorem Scan.before_eq {s : Scan} {first later : List PlacedToken} {p : Position}
    (increasing : s.places.Pairwise Position.Before) (split : s.tokens = first ++ later)
    (next : (later.map PlacedToken.position ++ [s.ending.position]).head? = some p) :
    s.before p = first.map PlacedToken.token := by
  obtain ⟨rest, places⟩ := List.head?_eq_some_iff.mp next
  rw [Scan.places, split, List.map_append, List.append_assoc, places,
    List.pairwise_append] at increasing
  obtain ⟨-, right, across⟩ := increasing
  have kept : first.filter (fun t => t.position.Before p) = first := by
    apply List.filter_eq_self.mpr
    intro t member
    have place : t.position ∈ first.map PlacedToken.position := List.mem_map_of_mem member
    exact decide_eq_true (across t.position place p List.mem_cons_self)
  have dropped : later.filter (fun t => t.position.Before p) = [] := by
    apply List.filter_eq_nil_iff.mpr
    intro t member
    have place : t.position ∈ p :: rest := by
      rw [← places]
      exact List.mem_append_left _ (List.mem_map_of_mem member)
    rw [decide_eq_true_eq]
    rcases List.mem_cons.mp place with same | inside
    · rw [same]
      exact p.not_before_self
    · exact ((List.pairwise_cons.mp right).1 t.position inside).asymm
  rw [Scan.before, split, List.filter_append, kept, dropped, List.append_nil]

end TypedConfig
