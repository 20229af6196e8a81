import TypedConfig.CommandLine
import TypedConfig.Proofs.Reporting.Messages

namespace TypedConfig

open Text

namespace Lexeme

theorem not_isControl_number {sign : List Char} (signed : sign ∈ [[], ['+'], ['-']])
    (tail : List Char) :
    ∀ c ∈ (number sign tail).text, isControl c = false := by
  have signs : [[], ['+'], ['-']].all (fun sign => sign.all (!isControl ·)) = true := by decide
  intro c member
  rcases List.mem_append.mp member with member | member
  · exact not_isControl_literal (List.all_eq_true.mp signs sign signed) c member
  · have digit := List.all_eq_true.mp List.all_takeWhile c member
    exact not_isControl_of_visible (isVisible_of_isDigit digit)

theorem not_isControl_of_spoilsInteger {c : Char} (h : spoilsInteger c = true) :
    isControl c = false := by
  simp only [spoilsInteger, Bool.or_eq_true, decide_eq_true_eq] at h
  rcases h with (rfl | rfl) | rfl <;> decide

theorem not_isControl_numeral {c : Char} {rest : List Char} {fault : LexicalFault}
    (h : (cut c rest).reading = .error fault) : ∀ x ∈ fault.numeral, isControl x = false := by
  rcases cut_cases c rest with
    ⟨symbol, -, eq⟩ | ⟨sign, tail, -, signed, -, eq⟩ | ⟨-, eq⟩ | eq | eq
  all_goals rw [eq] at h
  · cases h
  · have written := not_isControl_number signed tail
    rcases readNumber_eq_error h with ⟨follower, -, spoils, rfl⟩ | rfl
    · have after := not_isControl_of_spoilsInteger spoils
      exact List.forall_mem_append.mpr ⟨written, by simpa using after⟩
    · exact written
  · cases h
  all_goals
    cases h
    simp [LexicalFault.numeral]

end Lexeme

namespace Site

def name : Site → String
  | declared _ name _ => name
  | used _ _ r => r.name

theorem isWord_name {d : Document} (spelled : MarksSpelled d.marks) {site : Site}
    (member : site ∈ d.sites) : isWord site.name.toList = true := by
  have inside := (marks_isInfix_of_mem member).subset
  apply isWord_of_name_spelled
  cases site with
  | declared earlier name p => exact spelled (.placedName name p) (inside (by simp [marks]))
  | used earlier enclosing r =>
    exact spelled (.placedName r.name r.position) (inside (by simp [marks, Value.marks]))

end Site

variable {source : String} {limit : Nat} {e : Diagnostic}

theorem quotesSingleLine_of_resolve {d : Document} (spelled : MarksSpelled d.marks)
    (h : d.resolve limit = .error e) : e.QuotesSingleLine := by
  obtain ⟨before, site, walk, -, offends⟩ := Document.resolve_eq_error_iff.mp h
  have word := Site.isWord_name spelled (walk.subset (by simp) : site ∈ d.sites)
  cases site with
  | declared earlier name p =>
    obtain rfl : e = ConstantTable.duplicate name p := Site.eq_of_offence? offends
    exact ConstantTable.duplicate_quotesSingleLine word p
  | used earlier enclosing r =>
    rcases Site.eq_of_offence? offends with rfl | ⟨depth, rfl⟩
    · exact ConstantTable.unknown_quotesSingleLine word
    · exact Reference.tooDeep_quotesSingleLine word limit depth enclosing

theorem quotesSingleLine_of_parse (h : Document.parse source limit = .error e) :
    e.QuotesSingleLine := by
  rw [Document.parse_eq_resume] at h
  rcases Session.stop_of_resume h with
    ⟨first, t, later, d, tokens, -, refused⟩ | ⟨d, last, -, stuck⟩
  · rcases Session.eq_of_accept_error refused with rfl | rfl
    · exact Session.tooDeep_quotesSingleLine limit t.position
    · apply Expectation.quotesSingleLine
      rintro _ ⟨⟩
      apply (Cursor.ofText source.toList).scan_wellSpelled t
      have member : t ∈ (Scan.ofText source.toList).tokens := by simp [tokens]
      exact member
  · rcases Session.eq_of_settle_error stuck with ⟨fault, p, outlook, rfl⟩ | ⟨p, -, rfl, -⟩
    · obtain ⟨before, c, rest, -, reading⟩ := Scan.exists_cut_of_fault (Outlook.ending.inj outlook)
      exact LexicalFault.quotesSingleLine (Lexeme.not_isControl_numeral reading) p
    · exact d.expectation.quotesSingleLine (by simp) p

theorem quotesSingleLine_of_entryOf (h : entryOf source limit = .error e) :
    e.QuotesSingleLine := by
  rcases bind_eq_error_iff.mp h with failed | ⟨d, parsed, failed⟩
  · exact quotesSingleLine_of_parse failed
  · rcases bind_eq_error_iff.mp failed with failed | ⟨_, -, done⟩
    · exact quotesSingleLine_of_resolve (Document.marksSpelled_of_parse parsed) failed
    · cases done

theorem quotesSingleLine_of_compilePretty (h : compilePretty source = .error e) :
    e.QuotesSingleLine :=
  quotesSingleLine_of_entryOf (compile_eq_error_iff.mp (compilePretty_eq_error_iff.mp h))

theorem exitCode_of_compilePretty (h : compilePretty source = .error e) :
    (Outcome.ofDiagnostic e).exitCode = 1 := by
  have failed := compile_eq_error_iff.mp (compilePretty_eq_error_iff.mp h)
  have apart : e.category ≠ .inputOutput := by
    rcases category_of_entryOf failed with category | category | category <;> simp [category]
  exact if_neg apart

theorem Outcome.reports_ofDiagnostic (h : e.QuotesSingleLine) : (ofDiagnostic e).Reports :=
  ⟨rfl, _, congrArg (· ++ "\n") e.message_eq, h.report⟩

theorem Diagnostic.quotesSingleLine_notText :
    (ofInputOutput "stream did not contain valid UTF-8").QuotesSingleLine := by
  refine ⟨isSingleLine_literal (by decide), ?_⟩
  rintro _ ⟨⟩

/-- The exit code is 2 for an input that is no text, 1 for a source that does not compile and 0 for
any other. -/
theorem runCommand_is_faithful (input : ByteArray) :
    ((runCommand input).exitCode = 2 ↔ ¬ input.IsValidUTF8) ∧
    (∀ source : String, source.toByteArray = input →
      ((runCommand input).exitCode = 1 ↔ ∃ e, compilePretty source = .error e) ∧
      ((runCommand input).exitCode = 0 ↔ ∃ text, compilePretty source = .ok text) ∧
      ∀ text, compilePretty source = .ok text →
        (runCommand input).stdout = text ∧ (runCommand input).stderr = "") ∧
    ((runCommand input).exitCode ≠ 0 → (runCommand input).Reports) := by
  rcases runCommand_cases input with
    ⟨invalid, outcome⟩ | ⟨source, rfl, ⟨e, failed, outcome⟩ | ⟨text, compiled, outcome⟩⟩ <;>
    rw [outcome]
  · refine ⟨⟨fun _ => invalid, fun _ => rfl⟩, ?_, ?_⟩
    · rintro source rfl
      exact absurd source.isValidUTF8 invalid
    · intro _
      exact Outcome.reports_ofDiagnostic Diagnostic.quotesSingleLine_notText
  · have code := exitCode_of_compilePretty failed
    refine ⟨?_, ?_, ?_⟩
    · simp [code, source.isValidUTF8]
    · intro source' same
      obtain rfl := String.toByteArray_inj.mp same
      simp [code, failed]
    · intro _
      exact Outcome.reports_ofDiagnostic (quotesSingleLine_of_compilePretty failed)
  · refine ⟨?_, ?_, ?_⟩
    · simp [source.isValidUTF8]
    · intro source' same
      obtain rfl := String.toByteArray_inj.mp same
      simp [compiled]
    · intro failure
      exact absurd rfl failure

example : (runCommand "a\x1b".toByteArray).stderr =
    "[CONFXML] Syntax Error: unexpected character '\\u\x7b1b\x7d' at 1:2" ++
      " Hint: Unexpected character in input Code: 104\n" := by
  decide +kernel

end TypedConfig
