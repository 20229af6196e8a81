import Mathlib.Data.List.TakeWhile
import TypedConfig.Entry.Markup
import TypedConfig.Proofs.Lexing.Boundaries
import TypedConfig.Proofs.Lexing.Standing

namespace TypedConfig

theorem ofDigitChars_eq_decimalValue (digits : List Char) :
    Nat.ofDigitChars 10 digits 0 = decimalValue digits := by
  induction digits with
  | nil => rfl
  | cons c digits ih =>
    rw [Nat.ofDigitChars_cons, Nat.ofDigitChars_eq_ofDigitChars_zero, ih, decimalValue,
      Nat.mul_zero, Nat.zero_add, Nat.mul_comm]

theorem Token.ofSymbol?_of_isWordCharacter {c : Char} (h : Text.isWordCharacter c = true) :
    ofSymbol? c = none := by
  cases found : ofSymbol? c with
  | none => rfl
  | some t =>
    unfold ofSymbol? at found
    repeat' split at found
    all_goals cases found
    all_goals
      rename_i same
      rw [same] at h
      cases h

namespace Lexeme

theorem number_of_digits (sign : List Char) {digits rest : List Char}
    (digit : ∀ c ∈ digits, c.isDigit = true) (stop : ∀ c ∈ rest.head?, c.isDigit = false) :
    number sign (digits ++ rest) =
      ⟨sign ++ digits, readNumber (sign ++ digits) rest.head?⟩ := by
  have taken : digits.takeWhile Char.isDigit = digits := List.takeWhile_eq_self_iff.mpr digit
  have dropped : digits.dropWhile Char.isDigit = [] := List.dropWhile_eq_nil_iff.mpr digit
  rw [number, takeWhile_append_of_stop stop, dropWhile_append_of_stop stop, taken, dropped,
    List.nil_append]

theorem cut_of_isSign {c : Char} {rest : List Char} (sign : isSign c = true)
    (digit : rest.head?.any Char.isDigit = true) : cut c rest = number [c] rest := by
  have symbol : Token.ofSymbol? c = none := by
    simp only [isSign, Bool.or_eq_true, decide_eq_true_eq] at sign
    rcases sign with rfl | rfl <;> rfl
  simp only [cut, symbol, sign, digit, if_true]

theorem not_isSign_of_isWordCharacter {c : Char} (h : Text.isWordCharacter c = true) :
    isSign c = false := by
  apply Bool.eq_false_iff.mpr
  intro sign
  simp only [isSign, Bool.or_eq_true, decide_eq_true_eq] at sign
  rcases sign with rfl | rfl <;> cases h

theorem cut_of_isDigit {c : Char} {rest : List Char} (digit : c.isDigit = true) :
    cut c rest = number [] (c :: rest) := by
  have inWord := Text.isWordCharacter_of_isDigit digit
  simp [cut, Token.ofSymbol?_of_isWordCharacter inWord, not_isSign_of_isWordCharacter inWord, digit]

theorem cut_of_isAlpha {c : Char} {rest : List Char} (letter : c.isAlpha = true) :
    cut c rest = word (c :: rest) := by
  have inWord := Text.isWordCharacter_of_isAlpha letter
  have other := Text.not_isDigit_of_isAlpha letter
  simp [cut, Token.ofSymbol?_of_isWordCharacter inWord, not_isSign_of_isWordCharacter inWord, other,
    letter]

theorem spoilsInteger_iff {c : Char} : spoilsInteger c = true ↔ c ∈ ['.', 'e', 'E'] := by
  simp [spoilsInteger, or_assoc]

theorem readNumber_of_spoilt (written : List Char) {c : Char} (spoils : spoilsInteger c = true) :
    readNumber written (some c) = .error (.notInteger written c) := by
  rw [readNumber, Option.filter_some, if_pos spoils]

theorem readNumber_of_not_spoilt (written : List Char) {follower : Option Char}
    (integer : ∀ c ∈ follower, spoilsInteger c = false) :
    readNumber written follower =
      if fits (signedValue written) then .ok (.number (Int64.ofInt (signedValue written)))
      else .error (.outOfRange written) := by
  have nothing : follower.filter spoilsInteger = none := by
    rw [Option.filter_eq_none_iff]
    intro c first
    rw [integer c first]
    exact Bool.false_ne_true
  rw [readNumber, nothing]

end Lexeme

namespace Numeral

theorem signedValue_text (n : Numeral) : Lexeme.signedValue n.text = n.value := by
  have digits := Lexeme.signedValue_of_isDigit n.isDigit
  have signed := n.signed
  simp only [List.mem_cons, List.not_mem_nil, or_false] at signed
  unfold text value
  rcases signed with none | plus | minus
  · rw [none, List.nil_append, digits, ofDigitChars_eq_decimalValue]
    rfl
  · rw [plus, ← ofDigitChars_eq_decimalValue]
    rfl
  · rw [minus, ← ofDigitChars_eq_decimalValue]
    rfl

theorem fits_iff (n : Numeral) : Lexeme.fits n.value = true ↔ n.IsInRange := by
  simp only [Lexeme.fits, Bool.and_eq_true, decide_eq_true_eq, Int64.toInt_minValue,
    Int64.toInt_maxValue]
  rfl

theorem isInRange_of_value {n : Numeral} {m : Int64} (h : n.value = m.toInt) : n.IsInRange := by
  rw [IsInRange, h]
  exact ⟨m.le_toInt, Int.le_sub_one_iff.mpr m.toInt_lt⟩

theorem standsBefore (n : Numeral) {rest : List Char}
    (stop : ∀ c ∈ rest.head?, c.isDigit = false) :
    Lexeme.StandsBefore ⟨n.text, Lexeme.readNumber n.text rest.head?⟩ rest := by
  have number := Lexeme.number_of_digits n.sign n.isDigit stop
  obtain ⟨d, digits, split⟩ := List.exists_cons_of_ne_nil n.digits_ne_nil
  have digit : d.isDigit = true := n.isDigit d (by rw [split]; exact List.mem_cons_self)
  have first : (n.digits ++ rest).head?.any Char.isDigit = true := by simp [split, digit]
  have signed := n.signed
  simp only [List.mem_cons, List.not_mem_nil, or_false] at signed
  unfold text
  rcases signed with none | plus | minus
  · rw [none] at number ⊢
    have visible := Text.not_isBlank_of_visible (Text.isVisible_of_isDigit digit)
    refine ⟨d, digits ++ rest, by rw [split]; rfl, visible, ?_⟩
    rw [Lexeme.cut_of_isDigit digit, ← number, split]
    rfl
  · rw [plus] at number ⊢
    exact ⟨'+', n.digits ++ rest, rfl, by decide, (Lexeme.cut_of_isSign rfl first).trans number⟩
  · rw [minus] at number ⊢
    exact ⟨'-', n.digits ++ rest, rfl, by decide, (Lexeme.cut_of_isSign rfl first).trans number⟩

theorem standsBefore_of_value {n : Numeral} {m : Int64} {rest : List Char}
    (value : n.value = m.toInt) (ends : EndsLexeme rest) :
    Lexeme.StandsBefore ⟨n.text, .ok (.number m)⟩ rest := by
  have fits := n.fits_iff.mpr (isInRange_of_value value)
  have reading : Lexeme.readNumber n.text rest.head? = .ok (.number m) := by
    rw [Lexeme.readNumber_of_not_spoilt n.text ends.not_spoilsInteger, signedValue_text, if_pos fits,
      value, Int64.ofInt_toInt]
  rw [← reading]
  exact n.standsBefore ends.not_isDigit

theorem isReadBy_of_readNumber (n : Numeral) (rest : List Char) (start stop : Position) :
    n.IsReadBy rest ⟨start, some ⟨n.text, Lexeme.readNumber n.text rest.head?⟩, stop⟩ := by
  have integer (h : ∀ c ∈ rest.head?, c ∉ ['.', 'e', 'E']) :
      ∀ c ∈ rest.head?, Lexeme.spoilsInteger c = false := by
    intro c first
    exact Bool.eq_false_iff.mpr fun spoils => h c first (Lexeme.spoilsInteger_iff.mp spoils)
  constructor
  · intro c first spoils
    have fault := Lexeme.readNumber_of_spoilt n.text (Lexeme.spoilsInteger_iff.mpr spoils)
    rw [Option.mem_def.mp first, fault]
    exact ⟨_, rfl, rfl, rfl⟩
  · intro h inRange
    have fits := n.fits_iff.mpr inRange
    rw [Lexeme.readNumber_of_not_spoilt n.text (integer h), signedValue_text, if_pos fits]
    exact ⟨_, Lexeme.toInt_ofInt_of_fits fits, rfl⟩
  · intro h outOfRange
    rw [Lexeme.readNumber_of_not_spoilt n.text (integer h), signedValue_text,
      if_neg (mt n.fits_iff.mp outOfRange)]
    exact ⟨_, rfl, rfl, rfl⟩

def ofInt (m : Int) : Numeral where
  sign := if 0 ≤ m then [] else ['-']
  digits := m.natAbs.repr.toList
  signed := by split <;> simp
  digits_ne_nil := by
    rw [Nat.toList_repr]
    exact Nat.toDigits_ne_nil
  isDigit := fun _ => Lexeme.isDigit_of_mem_repr

theorem text_ofInt (m : Int) : (ofInt m).text = (toString m).toList := by
  rw [text, ofInt, Int.toString_eq_repr, Int.repr_eq_if]
  split
  · have whole : m.toNat = m.natAbs := by omega
    rw [whole]
    rfl
  · have whole : (-m).toNat = m.natAbs := by omega
    rw [whole, String.toList_append]
    rfl

theorem value_ofInt (m : Int) : (ofInt m).value = m := by
  rw [← signedValue_text, text_ofInt, Lexeme.signedValue_toString]

theorem readings_ofInt (m : Int64) :
    (Cursor.ofText (ofInt m.toInt).text).readings.map Reading.outcome =
      [.ok (some (.number m)), .ok none] := by
  have blank : IsGap [] := nofun
  have next := Cursor.next_of_standsBefore blank
    (standsBefore_of_value (value_ofInt m.toInt) blank.endsLexeme) .origin
  rw [List.nil_append, List.append_nil] at next
  rw [Cursor.ofText, Cursor.readings_of_lexeme (by rw [next]), next, Cursor.readings_of_end rfl]
  rfl

end Numeral

/-- A numeral is taken to its last digit. It is no number if a point or an exponent comes next, and
otherwise its value if 64 bits hold it. -/
theorem numbers_are_read_exactly :
    (∀ (s : Cursor) (n : Numeral) (gap rest : List Char), IsGap gap →
      s.rest = gap ++ (n.text ++ rest) → (∀ c ∈ rest.head?, c.isDigit = false) →
        s.next.2 = ⟨rest, s.position.after (gap ++ n.text)⟩ ∧
        s.next.1.start = (s.position.after gap).next ∧ n.IsReadBy rest s.next.1) ∧
    ∀ m : Int64, ∃ n : Numeral, n.value = m.toInt ∧ (Value.int m).content = .ok n.text ∧
      (Cursor.ofText n.text).readings.map Reading.outcome =
        [.ok (some (.number m)), .ok none] := by
  constructor
  · intro s n gap rest blank split stop
    have next := Cursor.next_of_standsBefore blank (n.standsBefore stop) s.position
    rw [← split] at next
    have found : s.next = _ := next
    rw [found]
    exact ⟨rfl, rfl, n.isReadBy_of_readNumber rest _ _⟩
  · intro m
    refine ⟨.ofInt m.toInt, Numeral.value_ofInt m.toInt, ?_, Numeral.readings_ofInt m⟩
    rw [Numeral.text_ofInt]
    rfl

theorem numbers_are_read_exactly_at_the_limits :
    (Cursor.ofText "\t-0009223372036854775808,".toList).next.1.outcome =
        .ok (some (.number Int64.minValue)) ∧
      ∃ e, (Cursor.ofText "+9223372036854775808e1".toList).next.1.outcome = .error e ∧
        e.code = some 102 := by
  let least : Numeral :=
    ⟨['-'], "0009223372036854775808".toList, by simp, by decide, List.all_eq_true.mp (by decide)⟩
  let large : Numeral :=
    ⟨['+'], "9223372036854775808".toList, by simp, by decide, List.all_eq_true.mp (by decide)⟩
  have blank : IsGap ['\t'] := List.all_eq_true.mp rfl
  constructor
  · have read := (numbers_are_read_exactly.1 (.ofText "\t-0009223372036854775808,".toList) least
      ['\t'] [','] blank rfl (by rintro _ ⟨⟩; rfl)).2.2
    have inRange : least.IsInRange := ⟨by decide, by decide⟩
    obtain ⟨m, value, outcome⟩ := read.inRange (by rintro _ ⟨⟩; decide) inRange
    have same : m = Int64.minValue := Int64.toInt.inj (value.trans (by decide))
    rw [outcome, same]
  · have read := (numbers_are_read_exactly.1 (.ofText "+9223372036854775808e1".toList) large
      [] ['e', '1'] nofun rfl (by rintro _ ⟨⟩; rfl)).2.2
    obtain ⟨e, outcome, code, -⟩ := read.spoilt 'e' rfl (by decide)
    exact ⟨e, outcome, code⟩

end TypedConfig
