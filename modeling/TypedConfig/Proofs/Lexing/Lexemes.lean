import TypedConfig.Cursor

namespace TypedConfig.Lexeme

theorem signedValue_of_isDigit {digits : List Char} (h : ∀ c ∈ digits, c.isDigit = true) :
    signedValue digits = Nat.ofDigitChars 10 digits 0 := by
  unfold signedValue
  split
  · have minus := h '-' List.mem_cons_self
    cases minus
  · have plus := h '+' List.mem_cons_self
    cases plus
  · rfl

theorem isDigit_of_mem_repr {n : Nat} {c : Char} (h : c ∈ n.repr.toList) : c.isDigit = true := by
  rw [Nat.toList_repr] at h
  exact Nat.isDigit_of_mem_toDigits (by decide) (by decide) h

theorem isDigit_or_minus_of_mem_toString {n : Int} {c : Char} (h : c ∈ (toString n).toList) :
    c.isDigit = true ∨ c = '-' := by
  rw [Int.toString_eq_repr, Int.repr_eq_if] at h
  split at h
  · exact .inl (isDigit_of_mem_repr h)
  · rw [String.toList_append] at h
    rcases List.mem_append.mp h with sign | digit
    · exact .inr (by simpa using sign)
    · exact .inl (isDigit_of_mem_repr digit)

theorem signedValue_repr (n : Nat) : signedValue n.repr.toList = n := by
  rw [signedValue_of_isDigit fun _ => isDigit_of_mem_repr, Nat.toList_repr,
    Nat.ofDigitChars_ten_toDigits]

theorem signedValue_toString (n : Int) : signedValue (toString n).toList = n := by
  rw [Int.toString_eq_repr, Int.repr_eq_if]
  split
  · rename_i nonneg
    rw [signedValue_repr, Int.toNat_of_nonneg nonneg]
  · have minus : signedValue ("-" ++ (-n).toNat.repr).toList =
        -(Nat.ofDigitChars 10 (-n).toNat.repr.toList 0 : Int) := by
      rw [String.toList_append]
      rfl
    rw [minus, Nat.toList_repr, Nat.ofDigitChars_ten_toDigits]
    omega

theorem eq_of_toString {m n : Int64}
    (h : (toString m.toInt).toList = (toString n.toInt).toList) : m = n := by
  have value : m.toInt = n.toInt := by
    rw [← signedValue_toString m.toInt, h, signedValue_toString]
  exact Int64.toInt.inj value

end TypedConfig.Lexeme

namespace TypedConfig

namespace Token

theorem asName?_ofWord (word : String) : (ofWord word).asName? = some word := by
  unfold ofWord
  split
  · rename_i keyword
    rw [keyword]
    rfl
  · rfl

theorem ofWord_wellSpelled {word : String} (h : Text.isWord word.toList = true) :
    (ofWord word).WellSpelled := by
  unfold ofWord
  split
  · exact True.intro
  · rename_i other
    exact ⟨h, other⟩

/-- Without `WellSpelled` the keyword could also be spelled as a name. -/
theorem eq_ofWord_of_asName? {t : Token} {text : String} (spelled : t.WellSpelled)
    (h : t.asName? = some text) : t = ofWord text := by
  cases t with
  | name word =>
    cases h
    have other : text ≠ "var" := spelled.2
    simp [ofWord, other]
  | var => cases h; rfl
  | _ => cases h

theorem isWord_of_asName? {t : Token} {text : String} (spelled : t.WellSpelled)
    (h : t.asName? = some text) : Text.isWord text.toList = true := by
  cases t with
  | name word => cases h; exact spelled.1
  | var => cases h; decide
  | _ => cases h

theorem ofSymbol?_wellSpelled {c : Char} {t : Token} (h : ofSymbol? c = some t) :
    t.WellSpelled := by
  unfold ofSymbol? at h
  repeat' split at h
  all_goals cases h
  all_goals exact True.intro

end Token

namespace Lexeme

theorem readNumber_wellSpelled {written : List Char} {follower : Option Char} {t : Token}
    (h : readNumber written follower = .ok t) : t.WellSpelled := by
  unfold readNumber at h
  repeat' split at h
  all_goals cases h
  exact True.intro

theorem word_wellSpelled {c : Char} {rest : List Char} {t : Token} (letter : c.isAlpha = true)
    (h : (word (c :: rest)).reading = .ok t) : t.WellSpelled := by
  cases h
  apply Token.ofWord_wellSpelled
  have first := Text.isWordCharacter_of_isAlpha letter
  have later : (rest.takeWhile Text.isWordCharacter).all Text.isWordCharacter = true :=
    List.all_takeWhile
  simp [first, later, letter, Text.isWord]

theorem cut_wellSpelled {c : Char} {rest : List Char} {t : Token}
    (h : (cut c rest).reading = .ok t) : t.WellSpelled := by
  unfold cut at h
  split at h
  · rename_i symbol found
    cases h
    exact Token.ofSymbol?_wellSpelled found
  split at h
  · split at h
    · exact readNumber_wellSpelled h
    · cases h
  split at h
  · exact readNumber_wellSpelled h
  split at h
  · rename_i letter
    exact word_wellSpelled letter h
  · cases h

end Lexeme

namespace Cursor

theorem lexeme_eq_cut {s : Cursor} {lexeme : Lexeme} (h : s.next.1.lexeme = some lexeme) :
    ∃ c rest, lexeme = Lexeme.cut c rest := by
  unfold next at h
  split at h
  · cases h
  · rename_i c rest position skipped
    cases h
    exact ⟨c, rest, rfl⟩

theorem scan_wellSpelled (s : Cursor) : ∀ t ∈ s.scan.tokens, t.token.WellSpelled := by
  fun_induction Cursor.scan s with
  | case1 => simp
  | case2 => simp
  | case3 s lexeme found token reading ih =>
    obtain ⟨c, rest, rfl⟩ := lexeme_eq_cut found
    intro t member
    rcases List.mem_cons.mp member with rfl | member
    · exact Lexeme.cut_wellSpelled reading
    · exact ih t member

end Cursor

theorem Scan.wellSpelled_of_ofText {source : List Char} {tokens : List PlacedToken}
    {ending : Ending} (h : Scan.ofText source = ⟨tokens, ending⟩) :
    ∀ t ∈ tokens, t.token.WellSpelled := by
  have spelled := (Cursor.ofText source).scan_wellSpelled
  have same : (Cursor.ofText source).scan = ⟨tokens, ending⟩ := h
  rwa [same] at spelled

end TypedConfig
