import TypedConfig.Proofs.Compiling.Outputs
import TypedConfig.Proofs.Lexing.Standing
import TypedConfig.Proofs.Reading.Failures
import TypedConfig.Proofs.Resolving.FirstOffence

namespace TypedConfig

open Value

theorem Written.of_isInfix {marks part : List Mark} {tokens : List PlacedToken}
    (h : Written marks tokens) (inside : part <:+: marks) :
    ∃ first middle later, tokens = first ++ (middle ++ later) ∧ Written part middle := by
  obtain ⟨before, after, rfl⟩ := inside
  obtain ⟨_, later, rfl, h, -⟩ := h.split
  obtain ⟨first, middle, rfl, -, h⟩ := h.split
  exact ⟨first, middle, later, List.append_assoc first middle later, h⟩

namespace Value

mutual

theorem marks_ref_isInfix {v : Value} {enclosing : Nat} {o : Nat × Reference}
    (h : o ∈ v.occurrences enclosing) : (ref o.2).marks <:+: v.marks := by
  match v with
  | int _ => cases h
  | ref r =>
    obtain rfl := List.mem_singleton.mp h
    exact List.infix_rfl
  | array [] => cases h
  | array (item :: items) =>
    apply List.infix_cons
    rcases List.mem_append.mp h with h | h
    · exact List.infix_append_of_infix_left (marks_ref_isInfix h)
    · exact List.infix_append_of_infix_right (itemsMarks_ref_isInfix h)
  | dict [] => cases h
  | dict ((key, value) :: pairs) =>
    apply List.infix_cons
    apply List.infix_cons
    apply List.infix_cons
    rcases List.mem_append.mp h with h | h
    · exact List.infix_append_of_infix_left (marks_ref_isInfix h)
    · exact List.infix_append_of_infix_right (pairsMarks_ref_isInfix h)

theorem itemsMarks_ref_isInfix {items : List Value} {enclosing : Nat} {o : Nat × Reference}
    (h : o ∈ itemsOccurrences enclosing items) : (ref o.2).marks <:+: itemsMarks items := by
  match items with
  | [] => cases h
  | item :: items =>
    apply List.infix_cons
    rcases List.mem_append.mp h with h | h
    · exact List.infix_append_of_infix_left (marks_ref_isInfix h)
    · exact List.infix_append_of_infix_right (itemsMarks_ref_isInfix h)

theorem pairsMarks_ref_isInfix {pairs : List (String × Value)} {enclosing : Nat}
    {o : Nat × Reference} (h : o ∈ pairsOccurrences enclosing pairs) :
    (ref o.2).marks <:+: pairsMarks pairs := by
  match pairs with
  | [] => cases h
  | (key, value) :: pairs =>
    apply List.infix_cons
    apply List.infix_cons
    apply List.infix_cons
    rcases List.mem_append.mp h with h | h
    · exact List.infix_append_of_infix_left (marks_ref_isInfix h)
    · exact List.infix_append_of_infix_right (pairsMarks_ref_isInfix h)

end

end Value

namespace Site

def marks : Site → List Mark
  | declared _ name p => [.free .var, .placedName name p]
  | used _ _ r => (ref r).marks

theorem marks_isInfix_of_mem_value {earlier : List Declaration} {v : Value} {site : Site}
    (h : site ∈ v.sites earlier) : site.marks <:+: v.marks := by
  obtain ⟨o, occurs, rfl⟩ := List.mem_map.mp h
  exact marks_ref_isInfix occurs

theorem marks_isInfix_of_mem {e : Entry} {earlier declarations : List Declaration} {site : Site}
    (h : site ∈ sitesAfter e.value earlier declarations) :
    site.marks <:+: declarations.flatMap Declaration.marks ++ e.marks := by
  induction declarations generalizing earlier with
  | nil => exact List.infix_cons (marks_isInfix_of_mem_value h)
  | cons d later ih =>
    rw [List.flatMap_cons, List.append_assoc]
    rcases List.mem_append.mp h with h | h
    · apply List.infix_append_of_infix_left
      rcases List.mem_cons.mp h with rfl | h
      · exact (List.prefix_append _ _).isInfix
      · exact List.infix_cons (List.infix_cons (marks_isInfix_of_mem_value h))
    · exact List.infix_append_of_infix_right (ih h)

end Site

namespace Scan

variable {source : List Char} {name : String} {p : Position}

theorem hasReference_of_isInfix {q r : Position}
    (h : [⟨.pipe, q⟩, ⟨.ofWord name, p⟩, ⟨.pipe, r⟩] <:+: (Scan.ofText source).tokens) :
    ∃ before rest, StandsAt source p before rest ∧ StartsWithWord name rest ∧
      (Scan.ofText source).HasReference name p before rest := by
  obtain ⟨first, later, tokens⟩ := h
  obtain ⟨s, before, here, scan⟩ := Scan.exists_cursor
    (tokens.symm.trans (List.append_assoc _ _ _))
  obtain ⟨scan, gap, bar, opening⟩ := Cursor.scan_of_cons here.2 scan
  obtain rfl : bar = ['|'] := opening.token
  have here := here.next opening
  obtain ⟨scan, gap', word, named⟩ := Cursor.scan_of_cons here.2 scan
  obtain rfl := Token.eq_of_isWritten_ofWord named.token
  have stands := here.standsAt named
  have here := here.next named
  obtain ⟨-, gap'', bar', closing⟩ := Cursor.scan_of_cons here.2 scan
  obtain rfl : bar' = ['|'] := closing.token
  refine ⟨_, _, stands, named.word name rfl, before ++ gap, gap', gap'', _, named.blank,
    closing.blank, by simp, by rw [closing.rest]; rfl, ?_⟩
  have opens : q = (Position.ofText (before ++ gap)).next := opening.start
  have closes : r = (Position.ofText (before ++ gap ++ ['|'] ++ gap' ++ name.toList ++ gap'')).next :=
    closing.start
  rw [← opens, ← closes]
  exact ⟨first, later, tokens⟩

theorem hasDeclaration_of_isInfix {q : Position}
    (h : [⟨.var, q⟩, ⟨.ofWord name, p⟩] <:+: (Scan.ofText source).tokens) :
    ∃ before rest, StandsAt source p before rest ∧ StartsWithWord name rest ∧
      (Scan.ofText source).HasDeclaration name p before := by
  obtain ⟨first, later, tokens⟩ := h
  obtain ⟨s, before, here, scan⟩ := Scan.exists_cursor
    (tokens.symm.trans (List.append_assoc _ _ _))
  obtain ⟨scan, gap, keyword, opening⟩ := Cursor.scan_of_cons here.2 scan
  obtain rfl : keyword = "var".toList := opening.token
  have here := here.next opening
  obtain ⟨-, gap', word, named⟩ := Cursor.scan_of_cons here.2 scan
  obtain rfl := Token.eq_of_isWritten_ofWord named.token
  have opens : q = (Position.ofText (before ++ gap)).next := opening.start
  refine ⟨_, _, here.standsAt named, named.word name rfl, before ++ gap, gap', named.blank,
    List.append_assoc _ _ _, ?_⟩
  rw [← opens]
  exact ⟨first, later, tokens⟩

end Scan

theorem Site.shown {source : List Char} {tokens : List PlacedToken} {ending : Ending}
    (scan : Scan.ofText source = ⟨tokens, ending⟩) {d : Document} (written : Written d.marks tokens)
    {site : Site} (member : site ∈ d.sites) :
    match site with
    | .declared _ name p => ∃ before rest, StandsAt source p before rest ∧
        StartsWithWord name rest ∧ (Scan.ofText source).HasDeclaration name p before
    | .used _ _ r => ∃ before rest, StandsAt source r.position before rest ∧
        StartsWithWord r.name rest ∧
        (Scan.ofText source).HasReference r.name r.position before rest := by
  obtain ⟨first, middle, later, rfl, part⟩ := written.of_isInfix (Site.marks_isInfix_of_mem member)
  cases site with
  | declared earlier name p =>
    obtain ⟨q, _, rfl, named⟩ := part.free
    obtain ⟨_, rfl, nothing⟩ := named.placedName
    obtain rfl := List.forall₂_nil_left_iff.mp nothing
    apply Scan.hasDeclaration_of_isInfix (q := q)
    rw [scan]
    exact ⟨first, later, List.append_assoc _ _ _⟩
  | used earlier enclosing r =>
    obtain ⟨q, _, rfl, named⟩ := part.free
    obtain ⟨_, rfl, closed⟩ := named.placedName
    obtain ⟨q', _, rfl, nothing⟩ := closed.free
    obtain rfl := List.forall₂_nil_left_iff.mp nothing
    apply Scan.hasReference_of_isInfix (q := q) (r := q')
    rw [scan]
    exact ⟨first, later, List.append_assoc _ _ _⟩

theorem pointsInto_of_resolve {source : List Char} {tokens : List PlacedToken} {ending : Ending}
    (scan : Scan.ofText source = ⟨tokens, ending⟩) {d : Document} (written : Written d.marks tokens)
    {limit : Nat} {e : Diagnostic} (h : d.resolve limit = .error e) : e.PointsInto source := by
  obtain ⟨before, site, walk, -, offends⟩ := Document.resolve_eq_error_iff.mp h
  have member : site ∈ d.sites := walk.subset (by simp)
  have shown := Site.shown scan written member
  cases site with
  | declared earlier name p =>
    obtain ⟨before, rest, stands, word, declared⟩ := shown
    obtain rfl : e = ConstantTable.duplicate name p := Site.eq_of_offence? offends
    exact ⟨p, before, rest, rfl, stands, word, declared⟩
  | used earlier enclosing r =>
    obtain ⟨before, rest, stands, word, referenced⟩ := shown
    rcases Site.eq_of_offence? offends with rfl | ⟨depth, rfl⟩
    · exact ⟨r.position, before, rest, rfl, stands, word, referenced⟩
    · exact ⟨r.position, before, rest, rfl, stands, r.name, depth, enclosing, rfl, word, referenced⟩

theorem head?_of_opensContainer {t : Token} {written : List Char} (h : t.IsWritten written)
    (opens : t.opensContainer = true) (rest : List Char) :
    (written ++ rest).head? = some '[' ∨ (written ++ rest).head? = some '\x7b' := by
  cases t with
  | openBracket =>
    obtain rfl : written = ['['] := h
    exact .inl rfl
  | openBrace =>
    obtain rfl : written = ['\x7b'] := h
    exact .inr rfl
  | _ => cases opens

theorem pointsInto_of_accept {source : List Char} {first later : List PlacedToken} {t : PlacedToken}
    (tokens : (Scan.ofText source).tokens = first ++ t :: later) {s : Session} {d : Draft}
    {e : Diagnostic} (h : s.accept d t = .error e) : e.PointsInto source := by
  obtain ⟨c, before, here, scan⟩ := Scan.exists_cursor tokens
  obtain ⟨-, gap, written, takes⟩ := Cursor.scan_of_cons here.2 scan
  have stands := here.standsAt takes
  have member : t ∈ (Scan.ofText source).tokens := by simp [tokens]
  unfold Session.accept at h
  split at h
  · rename_i refused
    cases h
    simp only [Bool.and_eq_true] at refused
    exact ⟨t.position, _, _, rfl, stands, head?_of_opensContainer takes.token refused.1.2 _⟩
  split at h
  · cases h
  · cases h
    have problem := d.expectation.problem_diagnostic_some t.token t.position
    refine ⟨t.position, _, _, ?_, stands, ?_⟩
    · rw [Diagnostic.position?, problem]
      rfl
    · unfold Diagnostic.IsShown
      rw [problem]
      exact ⟨t.token, written, _, member, rfl, takes.token, rfl⟩

theorem pointsInto_of_fault {source : List Char} {fault : LexicalFault} {p : Position}
    (h : (Scan.ofText source).ending = .fault fault p) : (fault.diagnostic p).PointsInto source := by
  obtain ⟨before, c, rest, stands, reading⟩ := Scan.exists_cut_of_fault h
  have shown := Lexeme.cut_fault reading
  refine ⟨p, before, c :: rest, ?_, stands, ?_⟩
  · cases fault <;> rfl
  · cases fault with
    | bareSign d => exact congrArg some shown.symm
    | notInteger digits follower => exact ⟨digits, follower, shown.1, shown.2, rfl⟩
    | outOfRange digits => exact ⟨digits, shown, rfl⟩
    | stray d => exact congrArg some shown.symm

theorem pointsInto_of_finish {source : List Char} {p : Position}
    (h : (Scan.ofText source).ending = .finish p) (e : Expectation) :
    (e.diagnostic none p).PointsInto source := by
  obtain rfl := Scan.place_of_finish h
  exact ⟨_, source, [], rfl, ⟨by rw [List.append_nil], rfl⟩, rfl⟩

theorem pointsInto_of_parse {source : String} {limit : Nat} {e : Diagnostic}
    (h : Document.parse source limit = .error e) : e.PointsInto source.toList := by
  rw [Document.parse_eq_resume] at h
  rcases Session.stop_of_resume h with ⟨first, t, later, d, tokens, -, refused⟩ | ⟨d, last, -, stuck⟩
  · exact pointsInto_of_accept tokens refused
  · rcases Session.eq_of_settle_error stuck with
      ⟨fault, p, outlook, rfl⟩ | ⟨p, outlook | outlook, rfl, -⟩
    · exact pointsInto_of_fault (Outlook.ending.inj outlook)
    · exact pointsInto_of_finish (Outlook.ending.inj outlook) d.expectation
    · cases outlook

/-- A report of a compilation names a place of the source, and what the report says is found there. -/
theorem compile_error_points_at_its_cause {source : String} {limit : Nat} {e : Diagnostic}
    (h : compile source limit = .error e) : e.PointsInto source.toList := by
  rcases bind_eq_error_iff.mp (compile_eq_error_iff.mp h) with failed | ⟨d, parsed, failed⟩
  · exact pointsInto_of_parse failed
  · obtain ⟨tokens, finish, scan, written, -⟩ := Document.parse_eq_ok_iff_written.mp parsed
    rcases bind_eq_error_iff.mp failed with failed | ⟨_, -, done⟩
    · exact pointsInto_of_resolve scan written failed
    · cases done

theorem compile_error_points_at_its_cause_deep_constant :
    let source := "var A [1]\n\u3000x \x7bk: | A |\x7d"
    let e := Reference.tooDeep ⟨"A", 2, 10⟩ 1 1 1
    compile source 1 = .error e ∧ e.PointsInto source.toList := by
  have failed : compile "var A [1]\n\u3000x \x7bk: | A |\x7d" 1 =
      .error (Reference.tooDeep ⟨"A", 2, 10⟩ 1 1 1) := by
    decide +kernel
  exact ⟨failed, compile_error_points_at_its_cause failed⟩

end TypedConfig
