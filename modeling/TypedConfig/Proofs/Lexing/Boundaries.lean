import TypedConfig.Proofs.Lexing.Partition
import TypedConfig.Transcript

namespace TypedConfig

section

variable {p : Char → Bool} {tail : List Char} (stop : ∀ c ∈ tail.head?, p c = false)

include stop

theorem takeWhile_of_stop : tail.takeWhile p = [] := by
  cases tail with
  | nil => rfl
  | cons c tail => simp [stop c rfl]

theorem dropWhile_of_stop : tail.dropWhile p = tail := by
  cases tail with
  | nil => rfl
  | cons c tail => simp [stop c rfl]

theorem takeWhile_append_of_stop (text : List Char) :
    (text ++ tail).takeWhile p = text.takeWhile p := by
  rw [List.takeWhile_append]
  split
  · rename_i whole
    rw [takeWhile_of_stop stop, List.append_nil,
      (List.takeWhile_prefix p).eq_of_length whole]
  · rfl

theorem dropWhile_append_of_stop (text : List Char) :
    (text ++ tail).dropWhile p = text.dropWhile p ++ tail := by
  rw [List.dropWhile_append]
  split
  · rename_i empty
    rw [dropWhile_of_stop stop, List.isEmpty_iff.mp empty, List.nil_append]
  · rfl

theorem filter_head?_append_of_stop (text : List Char) :
    (text ++ tail).head?.filter p = text.head?.filter p := by
  cases text with
  | nil =>
    cases tail with
    | nil => rfl
    | cons c tail => simp [stop c rfl]
  | cons c text => rfl

theorem any_head?_append_of_stop (text : List Char) :
    (text ++ tail).head?.any p = text.head?.any p := by
  rw [← Option.isSome_filter, filter_head?_append_of_stop stop, Option.isSome_filter]

end

/-- Can the text not go on a word, nor a number, nor spoil one? -/
def EndsLexeme (text : List Char) : Prop :=
  ∀ c ∈ text.head?, Text.isWordCharacter c = false ∧ c ≠ '.'

theorem endsLexeme_of_isBlank {c : Char} {text : List Char} (blank : Text.isBlank c = true) :
    EndsLexeme (c :: text) := by
  rintro _ ⟨⟩
  constructor
  · apply Bool.eq_false_iff.mpr
    intro inWord
    have visible := Text.not_isBlank_of_visible (Text.isVisible_of_isWordCharacter inWord)
    rw [blank] at visible
    cases visible
  · rintro rfl
    cases blank

theorem IsGap.endsLexeme {gap : List Char} (h : IsGap gap) : EndsLexeme gap := by
  cases gap with
  | nil => nofun
  | cons c gap => exact endsLexeme_of_isBlank (h c List.mem_cons_self)

theorem IsGap.endsLexeme_append {gap : List Char} (h : IsGap gap) (nonempty : gap ≠ [])
    (rest : List Char) : EndsLexeme (gap ++ rest) := by
  cases gap with
  | nil => exact absurd rfl nonempty
  | cons c gap => exact endsLexeme_of_isBlank (h c List.mem_cons_self)

namespace EndsLexeme

variable {tail : List Char} (h : EndsLexeme tail)

include h

theorem not_isWordCharacter : ∀ c ∈ tail.head?, Text.isWordCharacter c = false :=
  fun c first => (h c first).1

theorem not_isDigit : ∀ c ∈ tail.head?, c.isDigit = false := by
  intro c first
  apply Bool.eq_false_iff.mpr
  intro digit
  have other := (h c first).1
  rw [Text.isWordCharacter_of_isDigit digit] at other
  cases other

theorem not_spoilsInteger : ∀ c ∈ tail.head?, Lexeme.spoilsInteger c = false := by
  intro c first
  obtain ⟨other, point⟩ := h c first
  apply Bool.eq_false_iff.mpr
  intro spoils
  simp only [Lexeme.spoilsInteger, Bool.or_eq_true, decide_eq_true_eq] at spoils
  rcases spoils with (rfl | rfl) | rfl
  · exact point rfl
  · cases other
  · cases other

end EndsLexeme

namespace Lexeme

variable {tail : List Char} (ends : EndsLexeme tail)

include ends

theorem readNumber_append (written text : List Char) :
    readNumber written (text ++ tail).head? = readNumber written text.head? := by
  rw [readNumber, readNumber, filter_head?_append_of_stop ends.not_spoilsInteger]

theorem number_append (sign text : List Char) : number sign (text ++ tail) = number sign text := by
  rw [number, number, takeWhile_append_of_stop ends.not_isDigit,
    dropWhile_append_of_stop ends.not_isDigit, readNumber_append ends]

theorem word_append (text : List Char) : word (text ++ tail) = word text := by
  rw [word, word, takeWhile_append_of_stop ends.not_isWordCharacter]

theorem cut_append (c : Char) (text : List Char) : cut c (text ++ tail) = cut c text := by
  rw [cut, cut, any_head?_append_of_stop ends.not_isDigit, number_append ends,
    ← List.cons_append, number_append ends, word_append ends]

end Lexeme

def Lexeme.StandsBefore (lexeme : Lexeme) (rest : List Char) : Prop :=
  ∃ c tail, lexeme.text ++ rest = c :: tail ∧ Text.isBlank c = false ∧ cut c tail = lexeme

theorem Lexeme.StandsBefore.append {lexeme : Lexeme} {rest tail : List Char}
    (h : lexeme.StandsBefore rest) (ends : EndsLexeme tail) :
    lexeme.StandsBefore (rest ++ tail) := by
  obtain ⟨c, text, split, visible, cut⟩ := h
  refine ⟨c, text ++ tail, ?_, visible, (cut_append ends c text).trans cut⟩
  rw [← List.append_assoc, split]
  rfl

namespace Cursor

theorem next_of_standsBefore {gap rest : List Char} {lexeme : Lexeme} (blank : IsGap gap)
    (h : lexeme.StandsBefore rest) (p : Position) :
    next ⟨gap ++ (lexeme.text ++ rest), p⟩ =
      (⟨(p.after gap).next, some lexeme, p.after (gap ++ lexeme.text)⟩,
        ⟨rest, p.after (gap ++ lexeme.text)⟩) := by
  obtain ⟨c, tail, split, visible, cut⟩ := h
  have text : c :: tail = (Lexeme.cut c tail).text ++ rest := by rw [cut, split]
  rw [next_of_gap blank, split, next_of_cut visible text, cut, ← Position.after_append]

/-- A source is a gap, or a lexeme stands in it after a gap. -/
theorem gap_or_standsBefore (s : Cursor) :
    (IsGap s.rest ∧ s.next.1.lexeme = none) ∨
      ∃ gap lexeme rest, IsGap gap ∧ Lexeme.StandsBefore lexeme rest ∧
        s.rest = gap ++ (lexeme.text ++ rest) := by
  rcases s.next_cases with ⟨blank, found, -⟩ |
    ⟨gap, c, tail, rest, split, blank, visible, text, -, -⟩
  · exact .inl ⟨blank, by rw [found]⟩
  · refine .inr ⟨gap, Lexeme.cut c tail, rest, blank, ⟨c, tail, text.symm, visible, rfl⟩, ?_⟩
    rw [split, text]

end Cursor

end TypedConfig
