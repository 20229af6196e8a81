import TypedConfig.Proofs.Compiling.Pointing

namespace TypedConfig.Text

def IsSingleLine (text : String) : Prop := ∀ c ∈ text.toList, isControl c = false

theorem isSingleLine_append {left right : String} :
    IsSingleLine (left ++ right) ↔ IsSingleLine left ∧ IsSingleLine right := by
  simp only [IsSingleLine, String.toList_append, List.forall_mem_append]

theorem isSingleLine_ofList {text : List Char} :
    IsSingleLine (String.ofList text) ↔ ∀ c ∈ text, isControl c = false := by
  rw [IsSingleLine, String.toList_ofList]

theorem not_isControl_literal {text : List Char} (h : text.all (!isControl ·) = true) :
    ∀ c ∈ text, isControl c = false := by
  simpa using h

theorem isSingleLine_literal {text : List Char} (h : text.all (!isControl ·) = true) :
    IsSingleLine (String.ofList text) :=
  isSingleLine_ofList.mpr (not_isControl_literal h)

theorem not_isControl_of_visible {c : Char} (h : IsVisible c) : isControl c = false := by
  obtain ⟨low, high⟩ := h
  simp only [isControl, Bool.or_eq_false_iff, Bool.and_eq_false_iff, decide_eq_false_iff_not]
  omega

theorem isSingleLine_of_isWord {name : String} (h : isWord name.toList = true) :
    IsSingleLine name := by
  unfold IsSingleLine
  cases chars : name.toList with
  | nil => simp
  | cons first rest =>
    rw [chars, isWord, Bool.and_eq_true] at h
    obtain ⟨letter, later⟩ := h
    intro c member
    rcases List.mem_cons.mp member with rfl | member
    · exact not_isControl_of_visible (isVisible_of_isAlpha letter)
    · have inWord := List.all_eq_true.mp later c member
      exact not_isControl_of_visible (isVisible_of_isWordCharacter inWord)

theorem isSingleLine_int (n : Int) : IsSingleLine (toString n) := by
  intro c member
  rcases Lexeme.isDigit_or_minus_of_mem_toString member with digit | rfl
  · exact not_isControl_of_visible (isVisible_of_isDigit digit)
  · decide

theorem isSingleLine_nat (n : Nat) : IsSingleLine (toString n) :=
  isSingleLine_int n

theorem not_isControl_digitChar : ∀ digit < 16, isControl (Nat.digitChar digit) = false := by
  decide

theorem not_isControl_of_mem_toDigits (n : Nat) :
    ∀ c ∈ Nat.toDigits 16 n, isControl c = false := by
  induction n using Nat.strongRecOn with
  | ind n ih =>
    rw [Nat.toDigits_eq_if (by decide)]
    split
    · rename_i small
      simpa using not_isControl_digitChar n small
    · intro c member
      rcases List.mem_append.mp member with high | low
      · exact ih (n / 16) (by omega) c high
      · rw [List.mem_singleton.mp low]
        exact not_isControl_digitChar (n % 16) (Nat.mod_lt n (by decide))

theorem not_isControl_of_shortEscape? {c letter : Char} (h : shortEscape? c = some letter) :
    isControl letter = false := by
  unfold shortEscape? at h
  repeat' split at h
  all_goals cases h
  · decide
  · decide
  · decide
  · decide
  · rename_i quote
    rcases quote with rfl | rfl | rfl <;> decide

theorem isSingleLine_shown (c : Char) : IsSingleLine (String.ofList (shown c)) := by
  rw [isSingleLine_ofList, shown]
  split
  · rename_i letter short
    have visible := not_isControl_of_shortEscape? short
    simpa [visible] using (by decide : isControl '\\' = false)
  split
  · rw [codePointEscape, List.forall_mem_append, List.forall_mem_append]
    exact ⟨⟨not_isControl_literal (by decide), not_isControl_of_mem_toDigits c.toNat⟩,
      not_isControl_literal (by decide)⟩
  · rename_i plain
    simp only [isUnprintable, Bool.or_eq_true, not_or, Bool.not_eq_true] at plain
    simpa using plain.2.1

end TypedConfig.Text

namespace TypedConfig

open Text

def Problem.QuotesSingleLine : Problem → Prop
  | malformed quoted _ | unexpectedToken quoted _ | unexpectedEnd quoted _
  | duplicateConstant quoted _ | unknownConstant quoted _ | unresolved quoted
  | invalidName quoted | markup quoted | inputOutput quoted => IsSingleLine quoted
  | unexpectedCharacter _ _ | tooDeep _ _ => True

theorem Position.isSingleLine_text (p : Position) : IsSingleLine p.text := by
  simp only [text, isSingleLine_append]
  have colon : IsSingleLine ":" := isSingleLine_literal (by decide)
  exact ⟨⟨isSingleLine_nat p.line, colon⟩, isSingleLine_nat p.column⟩

theorem Problem.isSingleLine_text {problem : Problem} (h : problem.QuotesSingleLine) :
    IsSingleLine problem.text := by
  unfold text
  cases problem with
  | malformed _ p | unexpectedEnd _ p =>
    simp only [isSingleLine_append]
    refine ⟨⟨⟨?_, p.isSingleLine_text⟩, ?_⟩, h⟩ <;> exact isSingleLine_literal (by decide)
  | unexpectedToken _ p | duplicateConstant _ p | unknownConstant _ p =>
    simp only [isSingleLine_append]
    refine ⟨⟨⟨?_, h⟩, ?_⟩, p.isSingleLine_text⟩ <;> exact isSingleLine_literal (by decide)
  | unexpectedCharacter c p =>
    simp only [isSingleLine_append]
    refine ⟨⟨⟨?_, isSingleLine_shown c⟩, ?_⟩, p.isSingleLine_text⟩ <;>
      exact isSingleLine_literal (by decide)
  | tooDeep limit p =>
    simp only [isSingleLine_append]
    refine ⟨⟨⟨?_, isSingleLine_nat limit⟩, ?_⟩, p.isSingleLine_text⟩ <;>
      exact isSingleLine_literal (by decide)
  | unresolved _ | invalidName _ =>
    simp only [isSingleLine_append]
    refine ⟨⟨?_, h⟩, ?_⟩ <;> exact isSingleLine_literal (by decide)
  | markup _ | inputOutput _ =>
    simp only [isSingleLine_append]
    exact ⟨isSingleLine_literal (by decide), h⟩

structure Diagnostic.QuotesSingleLine (e : Diagnostic) : Prop where
  problem : e.problem.QuotesSingleLine
  hint : ∀ hint ∈ e.hint, IsSingleLine hint

namespace Diagnostic

variable {e : Diagnostic}

theorem isSingleLine_hintText (h : ∀ hint ∈ e.hint, IsSingleLine hint) :
    IsSingleLine e.hintText := by
  unfold hintText
  split
  · rename_i hint given
    exact isSingleLine_append.mpr ⟨isSingleLine_literal (by decide), h hint given⟩
  · exact isSingleLine_literal (by decide)

theorem isSingleLine_codeText (e : Diagnostic) : IsSingleLine e.codeText := by
  unfold codeText
  split
  · rename_i code _
    exact isSingleLine_append.mpr ⟨isSingleLine_literal (by decide), isSingleLine_nat code⟩
  · exact isSingleLine_literal (by decide)

theorem message_eq (e : Diagnostic) :
    e.message = "[CONFXML] " ++ (e.problem.text ++ e.hintText ++ e.codeText) := by
  rw [← String.append_assoc, ← String.append_assoc]
  rfl

theorem QuotesSingleLine.report (h : e.QuotesSingleLine) :
    IsSingleLine (e.problem.text ++ e.hintText ++ e.codeText) := by
  rw [isSingleLine_append, isSingleLine_append]
  exact ⟨⟨Problem.isSingleLine_text h.problem, isSingleLine_hintText h.hint⟩,
    isSingleLine_codeText e⟩

end Diagnostic

theorem Token.isSingleLine_text {t : Token} (h : t.WellSpelled) : IsSingleLine t.text := by
  cases t with
  | name word =>
    simp only [text, isSingleLine_append]
    refine ⟨⟨?_, isSingleLine_of_isWord h.1⟩, ?_⟩ <;> exact isSingleLine_literal (by decide)
  | number n =>
    have digits := isSingleLine_int n.toInt
    exact isSingleLine_append.mpr ⟨isSingleLine_literal (by decide), digits⟩
  | _ => exact isSingleLine_literal (by decide)

theorem Expectation.isSingleLine_text (e : Expectation) : IsSingleLine e.text := by
  cases e <;> exact isSingleLine_literal (by decide)

theorem Expectation.isSingleLine_advice? {e : Expectation} {found : Option Token} {advice : String}
    (h : e.advice? found = some advice) : IsSingleLine advice := by
  unfold advice? at h
  split at h
  all_goals cases h
  all_goals exact isSingleLine_literal (by decide)

theorem Expectation.quotesSingleLine (e : Expectation) {found : Option Token}
    (spelled : ∀ t ∈ found, t.WellSpelled) (p : Position) :
    (e.diagnostic found p).QuotesSingleLine := by
  have expected : IsSingleLine s!"Expected {e.text}" :=
    isSingleLine_append.mpr ⟨isSingleLine_literal (by decide), e.isSingleLine_text⟩
  unfold diagnostic
  split
  · exact ⟨expected, fun _ given => isSingleLine_advice? given⟩
  · rename_i token _
    exact ⟨Token.isSingleLine_text (spelled token rfl), by simpa using expected⟩
  · rename_i token advice given
    refine ⟨Token.isSingleLine_text (spelled token rfl), ?_⟩
    have both (context : String) (line : IsSingleLine context) :
        IsSingleLine s!"{context}. {advice}" := by
      simp only [isSingleLine_append]
      exact ⟨⟨line, isSingleLine_literal (by decide)⟩, isSingleLine_advice? given⟩
    simpa using both _ expected

namespace LexicalFault

def numeral : LexicalFault → List Char
  | bareSign _ | stray _ => []
  | notInteger digits follower => digits ++ [follower]
  | outOfRange digits => digits

theorem quotesSingleLine {fault : LexicalFault} (h : ∀ c ∈ fault.numeral, isControl c = false)
    (p : Position) : (fault.diagnostic p).QuotesSingleLine := by
  cases fault with
  | bareSign _ | stray _ =>
    refine ⟨True.intro, ?_⟩
    rintro _ ⟨⟩
    exact isSingleLine_literal (by decide)
  | notInteger digits follower =>
    constructor
    · have number := isSingleLine_ofList.mpr h
      refine isSingleLine_append.mpr ⟨isSingleLine_append.mpr ⟨?_, number⟩, ?_⟩ <;>
        exact isSingleLine_literal (by decide)
    · rintro _ ⟨⟩
      exact isSingleLine_literal (by decide)
  | outOfRange digits =>
    constructor
    · have number := isSingleLine_ofList.mpr h
      refine isSingleLine_append.mpr ⟨isSingleLine_append.mpr ⟨?_, number⟩, ?_⟩ <;>
        exact isSingleLine_literal (by decide)
    · rintro _ ⟨⟩

end LexicalFault

theorem ConstantTable.duplicate_quotesSingleLine {name : String}
    (word : Text.isWord name.toList = true) (p : Position) :
    (duplicate name p).QuotesSingleLine := by
  refine ⟨isSingleLine_of_isWord word, ?_⟩
  rintro _ ⟨⟩
  exact isSingleLine_literal (by decide)

theorem ConstantTable.unknown_quotesSingleLine {r : Reference}
    (word : Text.isWord r.name.toList = true) : (unknown r).QuotesSingleLine := by
  refine ⟨isSingleLine_of_isWord word, ?_⟩
  rintro _ ⟨⟩
  exact isSingleLine_literal (by decide)

theorem Session.tooDeep_quotesSingleLine (limit : Nat) (p : Position) :
    (tooDeep limit p).QuotesSingleLine := by
  refine ⟨True.intro, ?_⟩
  rintro _ ⟨⟩
  exact isSingleLine_literal (by decide)

theorem Reference.tooDeep_quotesSingleLine {r : Reference}
    (word : Text.isWord r.name.toList = true) (limit depth enclosing : Nat) :
    (r.tooDeep limit depth enclosing).QuotesSingleLine := by
  refine ⟨True.intro, ?_⟩
  rintro _ ⟨⟩
  simp only [isSingleLine_append]
  refine ⟨⟨⟨⟨⟨⟨?_, isSingleLine_of_isWord word⟩, ?_⟩, isSingleLine_nat depth⟩, ?_⟩,
    isSingleLine_nat enclosing⟩, ?_⟩ <;> exact isSingleLine_literal (by decide)

end TypedConfig
