import Mathlib.Data.List.Induction
import Mathlib.Data.Nat.Init
import TypedConfig.Cursor

namespace TypedConfig

theorem Position.after_origin (text : List Char) : origin.after text = ofText text := by
  induction text using List.reverseRecOn with
  | nil => rfl
  | append_singleton text c ih =>
    rw [after_append, ih]
    by_cases feed : c = '\n'
    · simp [step, ofText, feed, Nat.add_assoc]
    · simp [step, ofText, feed]

theorem Position.ofText_append (left right : List Char) :
    ofText (left ++ right) = (ofText left).after right := by
  rw [← after_origin, after_append, after_origin]

namespace Text

def IsVisible (c : Char) : Prop := 0x20 < c.toNat ∧ c.toNat < 0x7F

theorem not_isBlank_of_visible {c : Char} (h : IsVisible c) : isBlank c = false := by
  obtain ⟨low, high⟩ := h
  apply Bool.eq_false_iff.mpr
  intro blank
  obtain ⟨range, member, inside⟩ := inRanges_eq_true_iff.mp blank
  simp only [blankRanges, List.mem_cons, List.not_mem_nil, or_false] at member
  rcases member with rfl | rfl | rfl | rfl | rfl | rfl | rfl | rfl | rfl | rfl <;>
    simp only at inside <;> omega

theorem isVisible_of_isDigit {c : Char} (h : c.isDigit = true) : IsVisible c := by
  have range : 48 ≤ c.toNat ∧ c.toNat ≤ 57 := Char.isDigit_iff_toNat.mp h
  constructor <;> omega

theorem toNat_of_isAlpha {c : Char} (h : c.isAlpha = true) :
    (65 ≤ c.toNat ∧ c.toNat ≤ 90) ∨ (97 ≤ c.toNat ∧ c.toNat ≤ 122) := by
  have cases : (c.isUpper || c.isLower) = true := h
  rcases Bool.or_eq_true_iff.mp cases with upper | lower
  · exact .inl (of_decide_eq_true (p := 65 ≤ c.val ∧ c.val ≤ 90) upper)
  · obtain ⟨low, high⟩ := Bool.and_eq_true_iff.mp lower
    exact .inr ⟨of_decide_eq_true low, of_decide_eq_true high⟩

theorem isVisible_of_isAlpha {c : Char} (h : c.isAlpha = true) : IsVisible c := by
  have range := toNat_of_isAlpha h
  constructor <;> omega

theorem not_isDigit_of_isAlpha {c : Char} (h : c.isAlpha = true) : c.isDigit = false := by
  apply Bool.eq_false_iff.mpr
  intro digit
  have letters := toNat_of_isAlpha h
  have digits : 48 ≤ c.toNat ∧ c.toNat ≤ 57 := Char.isDigit_iff_toNat.mp digit
  omega

theorem isVisible_of_isWordCharacter {c : Char} (h : isWordCharacter c = true) : IsVisible c := by
  simp only [isWordCharacter, Char.isAlphanum, Bool.or_eq_true, decide_eq_true_eq] at h
  rcases h with (letter | digit) | rfl
  · exact isVisible_of_isAlpha letter
  · exact isVisible_of_isDigit digit
  · exact ⟨by decide, by decide⟩

theorem not_isBlank_of_dropWhile {text rest : List Char} {c : Char}
    (h : text.dropWhile isBlank = c :: rest) : isBlank c = false := by
  have stopped := List.head?_dropWhile_not isBlank text
  rw [h] at stopped
  exact stopped

end Text

namespace Lexeme

theorem not_isBlank_of_number {sign rest : List Char} (h : ∀ c ∈ sign, Text.isBlank c = false) :
    ∀ c ∈ (number sign rest).text, Text.isBlank c = false := by
  intro c member
  rcases List.mem_append.mp member with member | member
  · exact h c member
  · have digit := List.all_eq_true.mp List.all_takeWhile c member
    exact Text.not_isBlank_of_visible (Text.isVisible_of_isDigit digit)

/-- Only the first character of a lexeme could be a blank. -/
theorem cut_not_isBlank {first : Char} (h : Text.isBlank first = false) (rest : List Char) :
    ∀ c ∈ (cut first rest).text, Text.isBlank c = false := by
  have single : ∀ c ∈ [first], Text.isBlank c = false := by simpa using h
  unfold cut
  split
  · exact single
  split
  · split
    · exact not_isBlank_of_number single
    · exact single
  split
  · exact not_isBlank_of_number (by simp)
  split
  · intro c member
    have inWord := List.all_eq_true.mp List.all_takeWhile c member
    exact Text.not_isBlank_of_visible (Text.isVisible_of_isWordCharacter inWord)
  · exact single

end Lexeme

namespace Cursor

theorem next_of_gap {gap : List Char} (blank : ∀ c ∈ gap, Text.isBlank c = true)
    (rest : List Char) (p : Position) : next ⟨gap ++ rest, p⟩ = next ⟨rest, p.after gap⟩ := by
  have skipped : skipBlanks ⟨gap ++ rest, p⟩ = skipBlanks ⟨rest, p.after gap⟩ := by
    simp only [skipBlanks, List.dropWhile_append_of_pos blank, List.takeWhile_append_of_pos blank,
      Position.after_append]
  rw [next, skipped, next]

theorem next_of_blanks {gap : List Char} (blank : ∀ c ∈ gap, Text.isBlank c = true)
    (p : Position) :
    next ⟨gap, p⟩ = (⟨(p.after gap).next, none, p.after gap⟩, ⟨[], p.after gap⟩) := by
  have skipped := next_of_gap blank [] p
  rw [List.append_nil] at skipped
  exact skipped

theorem next_of_cut {c : Char} {rest after : List Char} (visible : Text.isBlank c = false)
    (text : c :: rest = (Lexeme.cut c rest).text ++ after) (p : Position) :
    next ⟨c :: rest, p⟩ =
      (⟨p.next, some (Lexeme.cut c rest), p.after (Lexeme.cut c rest).text⟩,
        ⟨after, p.after (Lexeme.cut c rest).text⟩) := by
  have skipped : skipBlanks ⟨c :: rest, p⟩ = ⟨c :: rest, p⟩ := by simp [skipBlanks, visible]
  have taken : (c :: rest).take (Lexeme.cut c rest).text.length = (Lexeme.cut c rest).text := by
    conv_lhs => rw [text, List.take_left]
  have left : (c :: rest).drop (Lexeme.cut c rest).text.length = after := by
    conv_lhs => rw [text, List.drop_left]
  simp [next, skipped, advance, taken, left]

theorem next_cases (s : Cursor) :
    (∀ c ∈ s.rest, Text.isBlank c = true) ∧
      s.next.1 = ⟨(s.position.after s.rest).next, none, s.position.after s.rest⟩ ∧
      s.next.2 = ⟨[], s.position.after s.rest⟩ ∨
    ∃ blanks c rest after, s.rest = blanks ++ c :: rest ∧
      (∀ b ∈ blanks, Text.isBlank b = true) ∧ Text.isBlank c = false ∧
      c :: rest = (Lexeme.cut c rest).text ++ after ∧
      s.next.1 = ⟨(s.position.after blanks).next, some (Lexeme.cut c rest),
        s.position.after (blanks ++ (Lexeme.cut c rest).text)⟩ ∧
      s.next.2 = ⟨after, s.position.after (blanks ++ (Lexeme.cut c rest).text)⟩ := by
  have whole := List.takeWhile_append_dropWhile (p := Text.isBlank) (l := s.rest)
  have blank : ∀ b ∈ s.rest.takeWhile Text.isBlank, Text.isBlank b = true :=
    List.all_eq_true.mp List.all_takeWhile
  cases dropped : s.rest.dropWhile Text.isBlank with
  | nil =>
    rw [dropped, List.append_nil] at whole
    rw [whole] at blank
    have found : s.next = _ := next_of_blanks blank s.position
    exact .inl ⟨blank, by rw [found], by rw [found]⟩
  | cons c rest =>
    rw [dropped] at whole
    have visible := Text.not_isBlank_of_dropWhile dropped
    obtain ⟨after, text⟩ := Lexeme.cut_text_prefix c rest
    have found : s.next = next ⟨s.rest.takeWhile Text.isBlank ++ c :: rest, s.position⟩ := by
      rw [whole]
    rw [next_of_gap blank, next_of_cut visible text.symm, ← Position.after_append] at found
    refine .inr ⟨_, c, rest, after, whole.symm, blank, visible, text.symm, ?_, ?_⟩
    · rw [found]
    · rw [found]

theorem next_reports {s : Cursor} {before : List Char} (h : s.position = .ofText before) :
    ∃ piece, s.rest = piece ++ s.next.2.rest ∧ s.next.1.Reports before piece ∧
      s.next.2.position = s.next.1.stop ∧ s.next.2.position = .ofText (before ++ piece) := by
  rcases s.next_cases with ⟨blanks, found, left⟩ |
    ⟨blanks, c, rest, after, split, blank, visible, text, found, left⟩
  · rw [found, left, h, ← Position.ofText_append]
    refine ⟨s.rest, by simp, ⟨s.rest, [], by simp, blanks, by simp, rfl, rfl, by simp⟩, rfl, rfl⟩
  · have shown := Lexeme.cut_not_isBlank visible rest
    have nonempty := Lexeme.cut_text_ne_nil c rest
    have noFeed : ∀ d ∈ (Lexeme.cut c rest).text, d ≠ '\n' := by
      rintro d member rfl
      have feed : Text.isBlank '\n' = false := shown '\n' member
      cases feed
    rw [found, left, h, ← Position.ofText_append, ← Position.ofText_append]
    refine ⟨blanks ++ (Lexeme.cut c rest).text, ?_, ?_, rfl, rfl⟩
    · rw [split, text, List.append_assoc]
    · refine ⟨blanks, (Lexeme.cut c rest).text, rfl, blank, ?_, ?_, rfl, by simp⟩
      · intro d member
        exact ⟨shown d member, noFeed d member⟩
      · simp [nonempty]

theorem taken_succ (s : Cursor) (n : Nat) : s.taken (n + 1) = s.taken n ++ s.piece n := by
  simp [taken, List.range_succ]

theorem piece_eq {s : Cursor} {n : Nat} {piece : List Char}
    (h : (s.after n).rest = piece ++ (s.after (n + 1)).rest) : s.piece n = piece := by
  simp [Cursor.piece, h]

/-- Nothing is lost, and the place of the cursor is where the text that it has taken ends. -/
theorem after_spec (source : List Char) (n : Nat) :
    source = (ofText source).taken n ++ ((ofText source).after n).rest ∧
      ((ofText source).after n).position = .ofText ((ofText source).taken n) := by
  induction n with
  | zero => exact ⟨rfl, rfl⟩
  | succ n ih =>
    obtain ⟨whole, place⟩ := ih
    obtain ⟨piece, split, -, -, moved⟩ := next_reports place
    have same : (ofText source).piece n = piece := piece_eq split
    rw [taken_succ, same]
    refine ⟨?_, moved⟩
    rw [List.append_assoc]
    exact whole.trans (congrArg _ split)

theorem reports_reading (source : List Char) (n : Nat) :
    ((ofText source).reading n).Reports ((ofText source).taken n) ((ofText source).piece n) ∧
      ((ofText source).after (n + 1)).position = ((ofText source).reading n).stop := by
  obtain ⟨piece, split, reports, stop, -⟩ := next_reports (after_spec source n).2
  rw [piece_eq split]
  exact ⟨reports, stop⟩

theorem after_next (s : Cursor) (n : Nat) : s.next.2.after n = s.after (n + 1) := by
  induction n with
  | zero => rfl
  | succ n ih =>
    rw [after, ih]
    rfl

theorem readings_of_end {s : Cursor} (h : s.next.1.lexeme = none) : s.readings = [s.next.1] := by
  rw [readings]
  split
  · rfl
  · rename_i found
    rw [h] at found
    cases found

theorem readings_of_lexeme {s : Cursor} {lexeme : Lexeme} (h : s.next.1.lexeme = some lexeme) :
    s.readings = s.next.1 :: s.next.2.readings := by
  rw [readings]
  split
  · rename_i found
    rw [h] at found
    cases found
  · rfl

/-- The end is found after one reading for each character at most. -/
theorem exists_last (s : Cursor) :
    ∃ last ≤ s.rest.length, (∀ n < last, (s.reading n).lexeme ≠ none) ∧
      (s.reading last).lexeme = none ∧ s.readings = (List.range (last + 1)).map s.reading := by
  fun_induction readings s with
  | case1 s found => exact ⟨0, Nat.zero_le _, by simp, found, rfl⟩
  | case2 s lexeme found ih =>
    obtain ⟨last, bound, earlier, ending, whole⟩ := ih
    have shorter := length_next_lt found
    have shift : s.next.2.reading = fun n => s.reading (n + 1) := by
      funext n
      rw [reading, after_next, reading]
    rw [shift] at earlier ending whole
    refine ⟨last + 1, by omega, ?_, ending, ?_⟩
    · intro n before
      cases n with
      | zero => simp [reading, after, found]
      | succ n => exact earlier n (by omega)
    · conv_rhs => rw [List.range_succ_eq_map, List.map_cons, List.map_map]
      rw [whole]
      rfl

theorem next_of_end {s : Cursor} (h : s.next.1.lexeme = none) : s.next.2.next = s.next := by
  rcases s.next_cases with ⟨-, found, left⟩ | ⟨_, c, rest, _, -, -, -, -, found, -⟩
  · rw [left, ← Prod.eta s.next, found, left]
    rfl
  · rw [found] at h
    cases h

theorem next_after_of_end {s : Cursor} {last n : Nat} (h : (s.reading last).lexeme = none)
    (later : last ≤ n) : (s.after n).next = (s.after last).next := by
  induction n, later using Nat.le_induction with
  | base => rfl
  | succ n _ ih =>
    have again : (s.after last).next.2.next = (s.after last).next := next_of_end h
    rw [after, ih, again]

end Cursor

/-- One reading after another cuts the source into pieces, each reported with its lines and columns.
The end is found in time, and then over and over again. -/
theorem readings_partition_source (source : List Char) :
    let s : Cursor := .ofText source
    (∀ n, source = s.taken n ++ (s.after n).rest ∧
      (s.reading n).Reports (s.taken n) (s.piece n) ∧
      (s.after (n + 1)).position = (s.reading n).stop) ∧
    ∃ last ≤ source.length, s.taken (last + 1) = source ∧
      s.readings = (List.range (last + 1)).map s.reading ∧
      (∀ n < last, (s.reading n).lexeme ≠ none ∧ s.piece n ≠ []) ∧
      ∀ n, last ≤ n → (s.reading n).lexeme = none ∧ s.reading n = s.reading last ∧
        s.after (n + 1) = s.after (last + 1) := by
  intro s
  have parts (n : Nat) := Cursor.after_spec source n
  have reports (n : Nat) := Cursor.reports_reading source n
  refine ⟨fun n => ⟨(parts n).1, reports n⟩, ?_⟩
  obtain ⟨last, bound, earlier, ending, whole⟩ := s.exists_last
  refine ⟨last, bound, ?_, whole, ?_, ?_⟩
  · have used : (s.after (last + 1)).rest = [] := by
      rcases (s.after last).next_cases with ⟨-, -, left⟩ | ⟨_, c, rest, _, -, -, -, -, found, -⟩
      · rw [Cursor.after, left]
      · rw [Cursor.reading, found] at ending
        cases ending
    have all := (parts (last + 1)).1
    rw [used, List.append_nil] at all
    exact all.symm
  · intro n before
    have some := earlier n before
    obtain ⟨blanks, lexeme, piece, -, -, text, -, -⟩ := (reports n).1
    refine ⟨some, ?_⟩
    intro nothing
    rw [piece, List.append_eq_nil_iff] at nothing
    rw [if_pos nothing.2, Option.map_eq_none_iff] at text
    exact some text
  · intro n later
    have same := Cursor.next_after_of_end ending later
    have reading : s.reading n = s.reading last := congrArg Prod.fst same
    exact ⟨by rw [reading, ending], reading, congrArg Prod.snd same⟩

end TypedConfig
