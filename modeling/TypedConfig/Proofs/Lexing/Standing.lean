import TypedConfig.Proofs.Lexing.Lexemes
import TypedConfig.Proofs.Lexing.Partition
import TypedConfig.Transcript

namespace TypedConfig

namespace Token

theorem isWritten_of_ofSymbol? {c : Char} {t : Token} (h : ofSymbol? c = some t) :
    t.IsWritten [c] := by
  unfold ofSymbol? at h
  repeat' split at h
  all_goals cases h
  all_goals
    rename_i same
    rw [same]
    rfl

theorem asName?_of_ofSymbol? {c : Char} {t : Token} (h : ofSymbol? c = some t) :
    t.asName? = none := by
  unfold ofSymbol? at h
  repeat' split at h
  all_goals cases h
  all_goals rfl

theorem isWritten_ofWord {word : List Char} (h : Text.isWord word = true) :
    (ofWord (String.ofList word)).IsWritten word := by
  unfold ofWord
  split
  · rename_i keyword
    show word = "var".toList
    rw [← keyword, String.toList_ofList]
  · exact ⟨String.toList_ofList.symm, h⟩

theorem eq_of_isWritten_ofWord {name : String} {text : List Char}
    (h : (ofWord name).IsWritten text) : text = name.toList := by
  unfold ofWord at h
  split at h
  · rename_i keyword
    rw [keyword]
    exact h
  · exact h.1

end Token

namespace Lexeme

theorem cut_cases (c : Char) (rest : List Char) :
    (∃ t, Token.ofSymbol? c = some t ∧ cut c rest = ⟨[c], .ok t⟩) ∨
    (∃ sign tail, c :: rest = sign ++ tail ∧ sign ∈ [[], ['+'], ['-']] ∧
      tail.head?.any Char.isDigit = true ∧ cut c rest = number sign tail) ∨
    (c.isAlpha = true ∧ cut c rest = word (c :: rest)) ∨
    cut c rest = ⟨[c], .error (.bareSign c)⟩ ∨ cut c rest = ⟨[c], .error (.stray c)⟩ := by
  unfold cut
  split
  · rename_i symbol found
    exact .inl ⟨symbol, found, rfl⟩
  split
  · rename_i signed
    split
    · rename_i digit
      refine .inr (.inl ⟨[c], rest, rfl, ?_, digit, rfl⟩)
      simpa [isSign] using signed
    · exact .inr (.inr (.inr (.inl rfl)))
  split
  · rename_i digit
    exact .inr (.inl ⟨[], c :: rest, rfl, by simp, digit, rfl⟩)
  split
  · rename_i letter
    exact .inr (.inr (.inl ⟨letter, rfl⟩))
  · exact .inr (.inr (.inr (.inr rfl)))

theorem toInt_ofInt_of_fits {n : Int} (h : fits n = true) : (Int64.ofInt n).toInt = n := by
  simp only [fits, Bool.and_eq_true, decide_eq_true_eq, Int64.toInt_minValue,
    Int64.toInt_maxValue] at h
  exact Int64.toInt_ofInt_of_le h.1 (Int.le_sub_one_iff.mp h.2)

theorem readNumber_eq_ok {written : List Char} {follower : Option Char} {t : Token}
    (h : readNumber written follower = .ok t) :
    ∃ n, t = .number n ∧ signedValue written = n.toInt := by
  unfold readNumber at h
  split at h
  · cases h
  split at h
  · rename_i fit
    cases h
    exact ⟨_, rfl, (toInt_ofInt_of_fits fit).symm⟩
  · cases h

theorem readNumber_eq_error {written : List Char} {follower : Option Char} {fault : LexicalFault}
    (h : readNumber written follower = .error fault) :
    (∃ c, follower = some c ∧ spoilsInteger c = true ∧ fault = .notInteger written c) ∨
      fault = .outOfRange written := by
  unfold readNumber at h
  split at h
  · rename_i c spoiled
    cases h
    obtain ⟨next, spoils⟩ := Option.filter_eq_some_iff.mp spoiled
    exact .inl ⟨c, next, spoils, rfl⟩
  split at h
  · cases h
  · cases h
    exact .inr rfl

theorem append_of_takeWhile (p : Char → Bool) (text : List Char) :
    ∃ after, text = text.takeWhile p ++ after ∧ (text.dropWhile p).head? = after.head? ∧
      ∀ c ∈ after.head?, p c = false := by
  refine ⟨text.dropWhile p, List.takeWhile_append_dropWhile.symm, rfl, ?_⟩
  intro c first
  have stopped := List.head?_dropWhile_not p text
  rw [Option.mem_def.mp first] at stopped
  exact stopped

section

variable {sign tail : List Char} (signed : sign ∈ [[], ['+'], ['-']])
  (digit : tail.head?.any Char.isDigit = true)

include signed digit

theorem isNumeral_number : IsNumeral (number sign tail).text := by
  refine ⟨sign, tail.takeWhile Char.isDigit, rfl, signed, ?_, List.all_eq_true.mp List.all_takeWhile⟩
  cases tail with
  | nil => cases digit
  | cons c rest =>
    have first : c.isDigit = true := digit
    simp [first]

theorem startsWithNumeral_number : StartsWithNumeral (number sign tail).text (sign ++ tail) := by
  obtain ⟨after, split, -, stopped⟩ := append_of_takeWhile Char.isDigit tail
  refine ⟨isNumeral_number signed digit, after, ?_, stopped⟩
  rw [number, List.append_assoc, ← split]

end

theorem follower_number {sign tail : List Char} {c : Char}
    (h : (tail.dropWhile Char.isDigit).head? = some c) :
    (number sign tail).text ++ [c] <+: sign ++ tail := by
  obtain ⟨after, split, first, -⟩ := append_of_takeWhile Char.isDigit tail
  rw [h] at first
  obtain ⟨later, rfl⟩ := List.head?_eq_some_iff.mp first.symm
  refine ⟨later, ?_⟩
  conv_rhs => rw [split]
  simp [number]

theorem isWord_takeWhile {c : Char} (letter : c.isAlpha = true) (rest : List Char) :
    Text.isWord ((c :: rest).takeWhile Text.isWordCharacter) = true := by
  have later : (rest.takeWhile Text.isWordCharacter).all Text.isWordCharacter = true :=
    List.all_takeWhile
  simp [Text.isWord, Text.isWordCharacter_of_isAlpha letter, letter, later]

theorem cut_isWritten {c : Char} {rest : List Char} {t : Token}
    (h : (cut c rest).reading = .ok t) : t.IsWritten (cut c rest).text := by
  rcases cut_cases c rest with ⟨symbol, found, eq⟩ | ⟨sign, tail, -, signed, digit, eq⟩ |
    ⟨letter, eq⟩ | eq | eq <;> rw [eq] at h ⊢
  · cases h
    exact Token.isWritten_of_ofSymbol? found
  · obtain ⟨n, rfl, value⟩ := readNumber_eq_ok h
    exact ⟨isNumeral_number signed digit, value⟩
  · cases h
    exact Token.isWritten_ofWord (isWord_takeWhile letter rest)
  · cases h
  · cases h

theorem cut_startsWithWord {c : Char} {rest : List Char} {name : String}
    (h : (cut c rest).reading = .ok (.ofWord name)) : StartsWithWord name (c :: rest) := by
  have named := Token.asName?_ofWord name
  rcases cut_cases c rest with ⟨symbol, found, eq⟩ | ⟨sign, tail, -, -, -, eq⟩ |
    ⟨letter, eq⟩ | eq | eq <;> rw [eq] at h
  · cases h
    rw [Token.asName?_of_ofSymbol? found] at named
    cases named
  · obtain ⟨n, number, -⟩ := readNumber_eq_ok h
    rw [number] at named
    cases named
  · obtain ⟨after, split, -, stopped⟩ := append_of_takeWhile Text.isWordCharacter (c :: rest)
    have same : name.toList = (c :: rest).takeWhile Text.isWordCharacter := by
      rw [← Except.ok.inj h, Token.asName?_ofWord, Option.some.injEq] at named
      rw [← named, String.toList_ofList]
    refine ⟨?_, after, ?_, stopped⟩
    · rw [same]
      exact isWord_takeWhile letter rest
    · rw [same]
      exact split
  · cases h
  · cases h

theorem cut_fault {c : Char} {rest : List Char} {fault : LexicalFault}
    (h : (cut c rest).reading = .error fault) :
    match fault with
    | .bareSign d | .stray d => d = c
    | .notInteger digits follower =>
      StartsWithNumeral digits (c :: rest) ∧ digits ++ [follower] <+: c :: rest
    | .outOfRange digits => StartsWithNumeral digits (c :: rest) := by
  rcases cut_cases c rest with ⟨symbol, found, eq⟩ | ⟨sign, tail, whole, signed, digit, eq⟩ |
    ⟨letter, eq⟩ | eq | eq <;> rw [eq] at h
  · cases h
  · have numeral := startsWithNumeral_number signed digit
    rw [whole]
    rcases readNumber_eq_error h with ⟨follower, next, -, rfl⟩ | rfl
    · exact ⟨numeral, follower_number next⟩
    · exact numeral
  · cases h
  · cases h
    rfl
  · cases h
    rfl

end Lexeme

/-- The cursor stands before the token `t`, which is written `written` after `gap`. -/
structure Cursor.Takes (s : Cursor) (before : List Char) (t : PlacedToken)
    (gap written : List Char) : Prop where
  blank : IsGap gap
  token : t.token.IsWritten written
  rest : s.rest = gap ++ (written ++ s.next.2.rest)
  start : t.position = (Position.ofText (before ++ gap)).next
  stop : s.next.2.position = .ofText (before ++ gap ++ written)
  word : ∀ name, t.token = .ofWord name → StartsWithWord name (written ++ s.next.2.rest)

namespace Cursor

variable {s : Cursor} {before : List Char}

theorem scan_of_end (h : s.next.1.lexeme = none) : s.scan = ⟨[], .finish s.next.1.start⟩ := by
  rw [scan]
  split
  · rfl
  · rename_i found
    rw [h] at found
    cases found

theorem scan_of_fault {lexeme : Lexeme} {fault : LexicalFault}
    (h : s.next.1.lexeme = some lexeme) (reading : lexeme.reading = .error fault) :
    s.scan = ⟨[], .fault fault s.next.1.start⟩ := by
  rw [scan]
  split
  · rename_i found
    rw [h] at found
    cases found
  · rename_i found
    rw [h] at found
    cases found
    rw [reading]

theorem scan_of_token {lexeme : Lexeme} {token : Token}
    (h : s.next.1.lexeme = some lexeme) (reading : lexeme.reading = .ok token) :
    s.scan = s.next.2.scan.cons ⟨token, s.next.1.start⟩ := by
  rw [scan]
  split
  · rename_i found
    rw [h] at found
    cases found
  · rename_i found
    rw [h] at found
    cases found
    rw [reading]

/-- A scan is at the end, at a fault, or at a token, and each of them stands after a gap. -/
theorem scan_cases (place : s.position = .ofText before) :
    (IsGap s.rest ∧ s.scan = ⟨[], .finish (Position.ofText (before ++ s.rest)).next⟩) ∨
    (∃ fault gap c rest, IsGap gap ∧ s.rest = gap ++ c :: rest ∧
      (Lexeme.cut c rest).reading = .error fault ∧
      s.scan = ⟨[], .fault fault (Position.ofText (before ++ gap)).next⟩) ∨
    ∃ t gap written, s.Takes before t gap written ∧ s.scan = s.next.2.scan.cons t := by
  rcases s.next_cases with ⟨blanks, found, left⟩ |
    ⟨gap, c, rest, after, split, blank, visible, text, found, left⟩
  · have scanned := scan_of_end (s := s) (by rw [found])
    rw [found, place, ← Position.ofText_append] at scanned
    exact .inl ⟨blanks, scanned⟩
  cases reading : (Lexeme.cut c rest).reading with
  | error fault =>
    have scanned := scan_of_fault (s := s) (by rw [found]) reading
    rw [found, place, ← Position.ofText_append] at scanned
    exact .inr (.inl ⟨fault, gap, c, rest, blank, split, reading, scanned⟩)
  | ok token =>
    have scanned := scan_of_token (s := s) (by rw [found]) reading
    rw [found, place, ← Position.ofText_append] at scanned
    refine .inr (.inr ⟨_, gap, (Lexeme.cut c rest).text, ?_, scanned⟩)
    constructor
    · exact blank
    · exact Lexeme.cut_isWritten reading
    · rw [split, text, left]
    · rfl
    · rw [left, place, ← Position.ofText_append, List.append_assoc]
    · rintro name rfl
      rw [left, ← text]
      exact Lexeme.cut_startsWithWord reading

theorem scan_of_finish {p : Position} (place : s.position = .ofText before)
    (h : s.scan = ⟨[], .finish p⟩) : p = (Position.ofText (before ++ s.rest)).next := by
  rcases scan_cases place with ⟨-, scanned⟩ | ⟨_, _, _, _, -, -, -, scanned⟩ | ⟨_, _, _, -, scanned⟩
  all_goals
    rw [h] at scanned
    cases scanned
  rfl

theorem scan_of_faulty {fault : LexicalFault} {p : Position} (place : s.position = .ofText before)
    (h : s.scan = ⟨[], .fault fault p⟩) :
    ∃ gap c rest, s.rest = gap ++ c :: rest ∧ p = (Position.ofText (before ++ gap)).next ∧
      (Lexeme.cut c rest).reading = .error fault := by
  rcases scan_cases place with ⟨-, scanned⟩ | ⟨_, gap, c, rest, -, split, reading, scanned⟩ |
    ⟨_, _, _, -, scanned⟩
  all_goals
    rw [h] at scanned
    cases scanned
  exact ⟨gap, c, rest, split, rfl, reading⟩

theorem scan_of_cons {t : PlacedToken} {later : List PlacedToken} {ending : Ending}
    (place : s.position = .ofText before) (h : s.scan = ⟨t :: later, ending⟩) :
    s.next.2.scan = ⟨later, ending⟩ ∧ ∃ gap written, s.Takes before t gap written := by
  rcases scan_cases place with ⟨-, scanned⟩ | ⟨_, _, _, _, -, -, -, scanned⟩ |
    ⟨u, gap, written, takes, scanned⟩
  all_goals
    rw [h] at scanned
    cases scanned
  exact ⟨rfl, gap, written, takes⟩

end Cursor

def Cursor.IsAfter (s : Cursor) (source before : List Char) : Prop :=
  source = before ++ s.rest ∧ s.position = .ofText before

namespace Cursor.IsAfter

variable {s : Cursor} {source before : List Char}

theorem next {t : PlacedToken} {gap written : List Char} (h : s.IsAfter source before)
    (takes : s.Takes before t gap written) :
    s.next.2.IsAfter source (before ++ gap ++ written) := by
  refine ⟨?_, takes.stop⟩
  rw [h.1, takes.rest]
  simp

theorem standsAt {t : PlacedToken} {gap written : List Char} (h : s.IsAfter source before)
    (takes : s.Takes before t gap written) :
    StandsAt source t.position (before ++ gap) (written ++ s.next.2.rest) := by
  refine ⟨?_, takes.start⟩
  rw [h.1, takes.rest, List.append_assoc]

/-- Wherever the tokens of a source are parted, some cursor scans the later ones. -/
theorem exists_of_split (h : s.IsAfter source before) {first later : List PlacedToken}
    {ending : Ending} (scan : s.scan = ⟨first ++ later, ending⟩) :
    ∃ s' before', Cursor.IsAfter s' source before' ∧ s'.scan = ⟨later, ending⟩ := by
  induction first generalizing s before with
  | nil => exact ⟨s, before, h, scan⟩
  | cons t first ih =>
    obtain ⟨scan, gap, written, takes⟩ := scan_of_cons h.2 scan
    exact ih (h.next takes) scan

end Cursor.IsAfter

theorem Scan.exists_cursor {source : List Char} {first later : List PlacedToken}
    (h : (Scan.ofText source).tokens = first ++ later) :
    ∃ s before, Cursor.IsAfter s source before ∧ s.scan = ⟨later, (Scan.ofText source).ending⟩ := by
  have start : (Cursor.ofText source).IsAfter source [] := ⟨rfl, rfl⟩
  have scan : (Cursor.ofText source).scan = ⟨first ++ later, (Scan.ofText source).ending⟩ := by
    rw [← h]
    rfl
  exact start.exists_of_split scan

theorem Scan.place_of_finish {source : List Char} {p : Position}
    (h : (Scan.ofText source).ending = .finish p) : p = (Position.ofText source).next := by
  obtain ⟨s, before, here, scan⟩ := Scan.exists_cursor
    (List.append_nil (Scan.ofText source).tokens).symm
  rw [h] at scan
  rw [here.1]
  exact Cursor.scan_of_finish here.2 scan

theorem Scan.exists_cut_of_fault {source : List Char} {fault : LexicalFault} {p : Position}
    (h : (Scan.ofText source).ending = .fault fault p) :
    ∃ before c rest, StandsAt source p before (c :: rest) ∧
      (Lexeme.cut c rest).reading = .error fault := by
  obtain ⟨s, before, here, scan⟩ := Scan.exists_cursor
    (List.append_nil (Scan.ofText source).tokens).symm
  rw [h] at scan
  obtain ⟨gap, c, rest, split, place, reading⟩ := Cursor.scan_of_faulty here.2 scan
  refine ⟨before ++ gap, c, rest, ⟨?_, place⟩, reading⟩
  rw [here.1, split, List.append_assoc]

end TypedConfig
