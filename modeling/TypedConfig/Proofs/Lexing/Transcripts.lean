import TypedConfig.Proofs.Lexing.Numerals

namespace TypedConfig

namespace Token

theorem not_isBlank_of_ofSymbol? {c : Char} {t : Token} (h : ofSymbol? c = some t) :
    Text.isBlank c = false := by
  unfold ofSymbol? at h
  repeat' split at h
  all_goals cases h
  all_goals
    rename_i same
    rw [same]
    rfl

theorem endsLexeme_of_ofSymbol? {c : Char} {t : Token} (h : ofSymbol? c = some t)
    (rest : List Char) : EndsLexeme (c :: rest) := by
  rintro _ ⟨⟩
  constructor
  · apply Bool.eq_false_iff.mpr
    intro inWord
    rw [ofSymbol?_of_isWordCharacter inWord] at h
    cases h
  · rintro rfl
    cases h

theorem exists_symbol {t : Token} {text : List Char} (h : t.isRun = false)
    (spelled : t.IsSpelled text) : ∃ c, text = [c] ∧ ofSymbol? c = some t := by
  cases t with
  | name word => cases h
  | number n => cases h
  | var => cases h
  | _ => exact ⟨_, spelled, rfl⟩

end Token

namespace Lexeme

variable {rest text : List Char}

theorem symbol_standsBefore {c : Char} {t : Token} (found : Token.ofSymbol? c = some t)
    (rest : List Char) : StandsBefore ⟨[c], .ok t⟩ rest :=
  ⟨c, rest, rfl, Token.not_isBlank_of_ofSymbol? found, by rw [cut, found]⟩

theorem word_standsBefore (word : Text.isWord text = true) (ends : EndsLexeme rest) :
    StandsBefore ⟨text, .ok (.ofWord (String.ofList text))⟩ rest := by
  -- Nothing that follows a word changes it, so the word can be looked at by itself.
  rw [← List.nil_append rest]
  refine StandsBefore.append ?_ ends
  cases text with
  | nil => cases word
  | cons c text =>
    obtain ⟨letter, later⟩ := Bool.and_eq_true_iff.mp word
    have inWord := Text.isWordCharacter_of_isAlpha letter
    have whole : (c :: text).takeWhile Text.isWordCharacter = c :: text := by
      rw [List.takeWhile_cons_of_pos inWord, List.takeWhile_eq_self_iff.mpr]
      exact List.all_eq_true.mp later
    refine ⟨c, text, List.append_nil _, ?_, ?_⟩
    · exact Text.not_isBlank_of_visible (Text.isVisible_of_isAlpha letter)
    · rw [cut_of_isAlpha letter, Lexeme.word, whole]

theorem standsBefore_of_isSpelled {t : Token} (spelled : t.IsSpelled text)
    (ends : t.isRun = true → EndsLexeme rest) : StandsBefore ⟨text, .ok t⟩ rest := by
  cases run : t.isRun with
  | false =>
    obtain ⟨c, rfl, found⟩ := Token.exists_symbol run spelled
    exact symbol_standsBefore found rest
  | true =>
    cases t with
    | name word =>
      obtain ⟨rfl, isWord, other⟩ := spelled
      have stands := word_standsBefore isWord (ends run)
      rwa [String.ofList_toList, Token.ofWord, if_neg other] at stands
    | number n =>
      obtain ⟨numeral, rfl, value⟩ := spelled
      exact Numeral.standsBefore_of_value value (ends run)
    | var =>
      cases spelled
      exact word_standsBefore rfl (ends run)
    | _ => cases run

end Lexeme

namespace Cursor

variable {tokens : List WrittenToken} {tail : List Char}

theorem endsLexeme_of_apart {t : WrittenToken} (apart : (t :: tokens).IsChain WrittenToken.Apart)
    (run : t.token.isRun = true) (blank : IsGap tail) :
    EndsLexeme (tokens.flatMap WrittenToken.source ++ tail) := by
  cases tokens with
  | nil => exact blank.endsLexeme
  | cons u tokens =>
    rw [List.flatMap_cons, WrittenToken.source, List.append_assoc, List.append_assoc]
    -- The next token is glued to this one only if it is a symbol, which ends any word or number.
    by_cases glued : u.gap = []
    · have symbol : u.token.isRun = false :=
        Bool.eq_false_iff.mpr fun other => apart.rel run other glued
      obtain ⟨c, text, found⟩ := Token.exists_symbol symbol u.spelled
      rw [glued, text]
      exact Token.endsLexeme_of_ofSymbol? found _
    · exact u.blank.endsLexeme_append glued _

theorem readings_of_written (apart : tokens.IsChain WrittenToken.Apart) (blank : IsGap tail)
    (p : Position) :
    (readings ⟨tokens.flatMap WrittenToken.source ++ tail, p⟩).map Reading.outcome =
      tokens.map (fun t => .ok (some t.token)) ++ [.ok none] := by
  induction tokens generalizing p with
  | nil =>
    have next := next_of_blanks blank p
    rw [List.flatMap_nil, List.nil_append, readings_of_end (by rw [next]), next]
    rfl
  | cons t tokens ih =>
    have stands := Lexeme.standsBefore_of_isSpelled t.spelled
      fun run => endsLexeme_of_apart apart run blank
    have next := next_of_standsBefore t.blank stands p
    rw [List.flatMap_cons, WrittenToken.source, List.append_assoc, List.append_assoc,
      readings_of_lexeme (by rw [next]), next, List.map_cons, ih apart.tail]
    rfl

theorem wellSpelled_of_next {s : Cursor} {t : Token} (h : s.next.1.outcome = .ok (some t)) :
    t.WellSpelled := by
  obtain ⟨text, found⟩ := Reading.outcome_eq_ok_some_iff.mp h
  obtain ⟨c, rest, cut⟩ := lexeme_eq_cut found
  exact Lexeme.cut_wellSpelled (by rw [← cut])

theorem wellSpelled_of_readings (s : Cursor) {t : Token}
    (h : .ok (some t) ∈ s.readings.map Reading.outcome) : t.WellSpelled := by
  fun_induction readings s with
  | case1 s found => exact wellSpelled_of_next (List.mem_singleton.mp h).symm
  | case2 s lexeme found ih =>
    rcases List.mem_cons.mp h with first | later
    · exact wellSpelled_of_next first.symm
    · exact ih later

end Cursor

namespace Token

def spelling : Token → List Char
  | name word => word.toList
  | number n => (Numeral.ofInt n.toInt).text
  | var => "var".toList
  | pipe => ['|']
  | openBracket => ['[']
  | closeBracket => [']']
  | openBrace => ['\x7b']
  | closeBrace => ['\x7d']
  | comma => [',']
  | semicolon => [';']
  | colon => [':']

theorem isSpelled_spelling {t : Token} (h : t.WellSpelled) : t.IsSpelled t.spelling := by
  cases t with
  | name word => exact ⟨rfl, h⟩
  | number n => exact ⟨.ofInt n.toInt, rfl, Numeral.value_ofInt n.toInt⟩
  | _ => rfl

end Token

def WrittenToken.ofToken (t : Token) (h : t.WellSpelled) : WrittenToken where
  gap := [' ']
  text := t.spelling
  token := t
  blank := List.all_eq_true.mp rfl
  spelled := t.isSpelled_spelling h

theorem Transcript.exists_of_wellSpelled {tokens : List Token} (h : ∀ t ∈ tokens, t.WellSpelled) :
    ∃ transcript : Transcript, transcript.tokens.map WrittenToken.token = tokens := by
  let written := tokens.pmap WrittenToken.ofToken h
  have apart : written.Pairwise WrittenToken.Apart := by
    refine List.pairwise_of_forall_mem_list fun _ _ u member _ _ => ?_
    obtain ⟨t, _, rfl⟩ := List.mem_pmap.mp member
    exact List.cons_ne_nil ' ' []
  refine ⟨⟨written, [], nofun, apart.isChain⟩, ?_⟩
  rw [List.map_pmap]
  exact (List.pmap_eq_map ..).trans (List.map_id tokens)

/-- Any source that writes tokens down is read as these tokens, and no source is read as other
names. -/
theorem transcripts_are_read_back :
    (∀ tokens : List Token, (∀ t ∈ tokens, t.WellSpelled) →
      ∃ transcript : Transcript, transcript.tokens.map WrittenToken.token = tokens) ∧
    (∀ transcript : Transcript, (Cursor.ofText transcript.source).readings.map Reading.outcome =
      transcript.tokens.map (fun written => .ok (some written.token)) ++ [.ok none]) ∧
    ∀ (source : List Char) (word : String),
      .ok (some (.name word)) ∈ (Cursor.ofText source).readings.map Reading.outcome →
        Text.isWord word.toList = true ∧ word ≠ "var" := by
  refine ⟨fun _ h => Transcript.exists_of_wellSpelled h, ?_, ?_⟩
  · intro transcript
    exact Cursor.readings_of_written transcript.apart transcript.blank .origin
  · intro source word found
    exact (Cursor.ofText source).wellSpelled_of_readings found

end TypedConfig
