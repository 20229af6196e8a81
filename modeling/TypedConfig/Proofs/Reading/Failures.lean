import TypedConfig.Proofs.Lexing.Places
import TypedConfig.Proofs.Reading.Viability

namespace TypedConfig

namespace Expectation

theorem le_code (e : Expectation) : 203 ≤ e.code := by
  cases e <;> decide

theorem code_diagnostic (e : Expectation) (found : Option Token) (p : Position) :
    (e.diagnostic found p).code = some e.code := by
  unfold diagnostic
  split <;> rfl

theorem problem_diagnostic_some (e : Expectation) (token : Token) (p : Position) :
    (e.diagnostic (some token) p).problem = .unexpectedToken token.text p := by
  unfold diagnostic
  cases e.advice? (some token) <;> rfl

end Expectation

namespace Session

variable {s : Session} {d : Draft} {e : Diagnostic}

/-- A run fails at a token that is refused, or after the last token. -/
theorem stop_of_resume {last : Position} {tokens : List PlacedToken}
    (h : (s.resume d last tokens).1 = .error e) :
    (∃ first t later next, tokens = first ++ t :: later ∧ s.acceptAll d first = .ok next ∧
      s.accept next t = .error e) ∨
    ∃ next last, s.acceptAll d tokens = .ok next ∧ (s.settle next last).1 = .error e := by
  induction tokens generalizing d last with
  | nil => exact .inr ⟨d, last, rfl, h⟩
  | cons t tokens ih =>
    rw [resume_cons] at h
    rcases bind_eq_error_iff.mp h with refused | ⟨next, accepted, failed⟩
    · exact .inl ⟨[], t, tokens, d, rfl, rfl, refused⟩
    · rcases ih failed with
        ⟨first, u, later, draft, rfl, taken, refused⟩ | ⟨draft, place, taken, stuck⟩
      · refine .inl ⟨t :: first, u, later, draft, rfl, ?_, refused⟩
        rwa [acceptAll_cons_of_ok accepted]
      · refine .inr ⟨draft, place, ?_, stuck⟩
        rwa [acceptAll_cons_of_ok accepted]

theorem not_viable_of_refused {first : List PlacedToken} {t : PlacedToken}
    (taken : s.acceptAll .start first = .ok d) (refused : s.accept d t = .error e) :
    ¬ Viable s.room (first.map PlacedToken.token ++ [t.token]) := by
  intro longer
  have whole : Viable s.room ((first ++ [t]).map PlacedToken.token) := by
    rwa [List.map_append]
  obtain ⟨next, accepted⟩ := acceptAll_of_viable whole
  rw [acceptAll_append_of_ok taken, acceptAll_cons, refused] at accepted
  cases accepted

theorem not_complete_of_unfinished {tokens : List PlacedToken}
    (taken : s.acceptAll .start tokens = .ok d) (unfinished : d.document? = none) :
    ¬ Complete s.room (tokens.map PlacedToken.token) := by
  intro complete
  obtain ⟨document, accepted⟩ := acceptAll_of_complete complete
  rw [taken] at accepted
  cases accepted
  cases unfinished

end Session

namespace Leftmost

variable {source : List Char} {limit : Nat} {p : Position}

theorem of_fault {fault : LexicalFault} (viable : Viable limit ((Scan.ofText source).before p))
    (ending : (Scan.ofText source).ending = .fault fault p) :
    Leftmost source limit (fault.diagnostic p) p where
  position := by cases fault <;> rfl
  viable := viable
  token := by
    intro text problem
    cases fault <;> rcases problem with problem | problem <;> cases problem
  finish := by
    intro message problem
    cases fault <;> cases problem
  lexeme := fun _ _ _ _ => ⟨fault, ending, rfl, Cursor.exists_reading_of_scan ending⟩
  kind := by
    right; right; right
    cases fault <;> exact ⟨_, rfl, by decide, by decide⟩

theorem of_finish {expectation : Expectation}
    (viable : Viable limit ((Scan.ofText source).before p))
    (ending : (Scan.ofText source).ending = .finish p)
    (incomplete : ¬ Complete limit ((Scan.ofText source).before p)) :
    Leftmost source limit (expectation.diagnostic none p) p where
  position := rfl
  viable := viable
  token := by
    intro text problem
    rcases problem with problem | problem <;> cases problem
  finish := fun _ _ => ⟨ending, incomplete⟩
  lexeme := by
    intro code same low high
    have grammatical := expectation.le_code
    cases same
    omega
  kind := .inr (.inr (.inl ⟨_, rfl⟩))

theorem of_token {s : Session} {d : Draft} {t : PlacedToken} {e : Diagnostic}
    (viable : Viable s.limit ((Scan.ofText source).before t.position))
    (member : t ∈ (Scan.ofText source).tokens)
    (stuck : ¬ Viable s.limit ((Scan.ofText source).before t.position ++ [t.token]))
    (refused : s.accept d t = .error e) : Leftmost source s.limit e t.position := by
  rcases Session.eq_of_accept_error refused with rfl | rfl
  · refine ⟨rfl, viable, fun _ _ => ⟨t, member, rfl, stuck⟩, ?_, ?_, .inr (.inl rfl)⟩
    · intro message problem
      cases problem
    · intro code same low high
      cases same
      omega
  · have problem := d.expectation.problem_diagnostic_some t.token t.position
    refine ⟨?_, viable, fun _ _ => ⟨t, member, rfl, stuck⟩, ?_, ?_, .inl ⟨_, problem⟩⟩
    · rw [Diagnostic.position?, problem]
      rfl
    · intro message same
      rw [problem] at same
      cases same
    · intro code same low high
      have grammatical := d.expectation.le_code
      rw [Expectation.code_diagnostic] at same
      cases same
      omega

end Leftmost

/-- The first failure of a parse shows where the source goes wrong. -/
theorem parse_error_is_leftmost {source : String} {limit : Nat} {e : Diagnostic}
    (h : Document.parse source limit = .error e) : ∃ p, Leftmost source.toList limit e p := by
  rw [Document.parse_eq_resume] at h
  have increasing : (Scan.ofText source.toList).places.Pairwise Position.Before :=
    (Cursor.ofText source.toList).scan_increasing
  have spelled : ∀ t ∈ (Scan.ofText source.toList).tokens, t.token.WellSpelled :=
    (Cursor.ofText source.toList).scan_wellSpelled
  rcases Session.stop_of_resume h with
    ⟨first, t, later, d, tokens, taken, refused⟩ | ⟨d, last, taken, stuck⟩
  · have before := Scan.before_eq increasing tokens rfl
    have known : ∀ u ∈ first, u.token.WellSpelled := by
      intro u member
      apply spelled u
      rw [tokens]
      exact List.mem_append_left _ member
    have viable := Session.viable_of_acceptAll known taken
    have unviable := Session.not_viable_of_refused taken refused
    rw [← before] at viable unviable
    refine ⟨t.position, .of_token viable ?_ unviable refused⟩
    rw [tokens]
    exact List.mem_append_right _ List.mem_cons_self
  · have before := Scan.before_eq increasing (List.append_nil _).symm rfl
    have viable := Session.viable_of_acceptAll spelled taken
    rw [← before] at viable
    rcases Session.eq_of_settle_error stuck with
      ⟨fault, p, outlook, rfl⟩ | ⟨p, outlook | outlook, rfl, unfinished⟩
    · have ending := Outlook.ending.inj outlook
      rw [ending] at viable
      exact ⟨p, .of_fault viable ending⟩
    · have ending := Outlook.ending.inj outlook
      have incomplete := Session.not_complete_of_unfinished taken unfinished
      rw [← before] at incomplete
      rw [ending] at viable incomplete
      exact ⟨p, .of_finish viable ending incomplete⟩
    · cases outlook

theorem parse_error_is_leftmost_missing_item :
    let e := Expectation.value.diagnostic (some .closeBracket) ⟨1, 6⟩
    Document.parse "x [1,] @" 128 = .error e ∧ ∃ p, Leftmost "x [1,] @".toList 128 e p := by
  have refused : Document.parse "x [1,] @" 128 =
      .error (Expectation.value.diagnostic (some .closeBracket) ⟨1, 6⟩) := by
    decide +kernel
  exact ⟨refused, parse_error_is_leftmost refused⟩

end TypedConfig
