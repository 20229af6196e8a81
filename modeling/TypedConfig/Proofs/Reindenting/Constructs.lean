import TypedConfig.Markup.Forest
import TypedConfig.Proofs.Reindenting.Cuts

namespace TypedConfig.Markup

variable {rest after content name : List Char} {e e' : Event}

namespace Event

/-- The event, written down, is read as `e'`, whatever comes after it. -/
def ReadAs (e e' : Event) : Prop :=
  ∃ inner, e.written = '<' :: inner ∧ ∀ rest, Piece.construct (inner ++ rest) = ⟨.ok e', rest⟩

def asRead : Event → Event
  | emptyTag [] => endTag []
  | e => e

theorem asRead_of_ne (ne : e ≠ emptyTag []) : e.asRead = e := by
  unfold asRead
  split
  · exact absurd rfl ne
  · rfl

theorem readAs_bare : (emptyTag []).ReadAs (emptyTag []).asRead := by
  refine ⟨['/', '>'], rfl, ?_⟩
  intro rest
  rfl

end Event

def OpensTag (text : List Char) : Prop :=
  ∀ c ∈ text.head?, c ≠ '!' ∧ c ≠ '?' ∧ c ≠ '/'

structure IsTagContent (content : List Char) : Prop where
  opens : OpensTag content
  cut : ∀ more, cutTag none (content ++ more) =
    (cutTag none more).map fun (first, rest) => (content ++ first, rest)

namespace Piece

theorem construct_of_opensTag (opens : OpensTag rest) : construct rest = tag rest := by
  unfold construct
  split
  · exact absurd rfl (opens _ rfl).1
  · exact absurd rfl (opens _ rfl).2.1
  · exact absurd rfl (opens _ rfl).2.2
  · rfl

theorem construct_tag (tag : IsTagContent content) (rest : List Char) :
    construct (content ++ '>' :: rest) =
      if content.getLast? = some '/' then ⟨.ok (.emptyTag content.dropLast), rest⟩
      else ⟨.ok (.startTag content), rest⟩ := by
  have opens : OpensTag (content ++ '>' :: rest) := by
    cases content with
    | nil =>
      rintro c ⟨⟩
      decide
    | cons c content => exact tag.opens
  have closed : cutTag none ('>' :: rest) = some ([], rest) := rfl
  have cut := tag.cut ('>' :: rest)
  rw [closed, Option.map_some] at cut
  simp only [List.append_nil] at cut
  rw [construct_of_opensTag opens, Piece.tag, cut]

end Piece

open Piece

theorem readAs_startTag (tag : IsTagContent content) (unclosed : content.getLast? ≠ some '/') :
    (Event.startTag content).ReadAs (.startTag content) := by
  refine ⟨content ++ ['>'], rfl, ?_⟩
  intro rest
  have read := construct_tag tag rest
  rw [if_neg unclosed] at read
  rw [List.append_assoc, List.singleton_append, read]

theorem readAs_emptyTag (tag : IsTagContent (content ++ ['/'])) :
    (Event.emptyTag content).ReadAs (.emptyTag content) := by
  refine ⟨content ++ ['/', '>'], rfl, ?_⟩
  intro rest
  have read := construct_tag tag rest
  rw [if_pos List.getLast?_concat, List.dropLast_concat] at read
  rw [← read]
  simp

/-- A tag that opens an element can be closed at once, unless nothing stands in it. -/
theorem IsTagContent.closed (tag : IsTagContent content) (ne : content ≠ []) :
    IsTagContent (content ++ ['/']) := by
  constructor
  · obtain ⟨c, content, rfl⟩ := List.exists_cons_of_ne_nil ne
    exact tag.opens
  · intro more
    have slash : cutTag none ('/' :: more) =
        (cutTag none more).map fun (first, rest) => ('/' :: first, rest) := rfl
    rw [List.append_assoc, List.singleton_append, tag.cut, slash, Option.map_map]
    simp [Function.comp_def]

theorem readAs_emptyTag_asRead (tag : IsTagContent content) :
    (Event.emptyTag content).ReadAs (Event.emptyTag content).asRead := by
  by_cases bare : content = []
  · rw [bare]
    exact Event.readAs_bare
  · rw [Event.asRead_of_ne (by simp [bare])]
    exact readAs_emptyTag (tag.closed bare)

/-- What the reader gives, told by how it can be read again. A start tag is told by its content,
which may come to stand in an empty tag. -/
def Event.Scanned : Event → Prop
  | .text content => IsRun content
  | .startTag content => IsTagContent content ∧ content.getLast? ≠ some '/'
  | e => e.ReadAs e

theorem isTagContent_of_cutTag (opens : OpensTag rest)
    (h : cutTag none rest = some (content, after)) : IsTagContent content := by
  refine ⟨?_, cutTag_append h⟩
  rw [eq_of_cutTag h] at opens
  cases content with
  | nil => simp [OpensTag]
  | cons c content => exact opens

theorem readAs_endTag (cut : ∀ rest, cutTag none (name ++ '>' :: rest) = some (name, rest))
    (trimmed : trimEnd name = name ∨ trimEnd name = []) :
    (Event.endTag name).ReadAs (.endTag name) := by
  refine ⟨'/' :: (name ++ ['>']), rfl, ?_⟩
  intro rest
  have again : construct ('/' :: (name ++ ['>']) ++ rest) = endTag (name ++ '>' :: rest) := by
    simp [construct]
  have same : (if (trimEnd name).isEmpty then name else trimEnd name) = name := by
    rcases trimmed with all | none
    · rw [all, ite_self]
    · rw [none]
      rfl
  rw [again, endTag, cut]
  simp only [same]

theorem scanned_of_endTag (h : (endTag rest).reading = .ok e) : e.Scanned := by
  unfold endTag at h
  split at h
  · cases h
  rename_i content after cut
  cases h
  by_cases none : trimEnd content = []
  · rw [none]
    have nothing : ∀ c ∈ ([] : List Char), isBlank c = true := by simp
    rw [← List.append_nil content] at cut
    exact readAs_endTag (cutTag_of_append_blanks (by simp) nothing cut) (.inr none)
  · obtain ⟨tail, whole, blank⟩ := exists_trimEnd_append content
    rw [whole] at cut
    have visible : (trimEnd content).isEmpty = false := by simp [none]
    simp only [visible]
    exact readAs_endTag (cutTag_of_append_blanks (by simp) blank cut)
      (.inl (trimEnd_trimEnd content))

theorem scanned_of_cdata (h : (cdata rest).reading = .ok e) : e.Scanned := by
  unfold cdata at h
  split at h
  · cases h
  rename_i inner after cut
  cases marked : "CDATA[".toList.isPrefixOf inner with
  | false =>
    rw [marked] at h
    cases h
  | true =>
    rw [marked] at h
    cases h
    obtain ⟨content, rfl⟩ := List.isPrefixOf_iff_prefix.mp marked
    have same : ("CDATA[".toList ++ content).drop 6 = content := rfl
    rw [same]
    refine ⟨'!' :: '[' :: ("CDATA[".toList ++ content ++ [']', ']', '>']), rfl, ?_⟩
    intro rest
    have again : construct ('!' :: '[' :: ("CDATA[".toList ++ content ++ [']', ']', '>']) ++ rest) =
      cdata ("CDATA[".toList ++ content ++ [']', ']', '>'] ++ rest) := rfl
    rw [again, cdata, cutAt_append (by simp) cut]
    simp only [marked, same]

theorem scanned_of_comment (h : (comment rest).reading = .ok e) : e.Scanned := by
  unfold comment at h
  split at h
  · cases h
  split at h
  · cases h
  rename_i hyphen rest content after cut
  split at h
  · cases h
    refine ⟨'!' :: '-' :: '-' :: (content ++ ['-', '-', '>']), rfl, ?_⟩
    intro rest
    have again : construct ('!' :: '-' :: '-' :: (content ++ ['-', '-', '>']) ++ rest) =
      comment ('-' :: (content ++ ['-', '-', '>'] ++ rest)) := rfl
    rw [again, comment, cutAt_append (by simp) cut]
    rfl
  · cases h

theorem instruction_append (h : cutAt ['?', '>'] rest = some (content, after))
    (other : ∀ later, rest ≠ '>' :: later) (more : List Char) :
    construct ('?' :: (content ++ ['?', '>']) ++ more) =
      ⟨.ok (if isDeclaration content then .declaration content else .instruction content),
        more⟩ := by
  have again : construct ('?' :: (content ++ ['?', '>']) ++ more) =
      instruction (content ++ ['?', '>'] ++ more) := rfl
  rw [again, instruction, cutAt_append (by simp) h]
  · by_cases declares : isDeclaration content <;> simp [declares]
  · -- A `>` at the start would have been there before.
    intro later first
    rw [eq_of_cutAt h] at other
    cases content with
    | nil => cases first
    | cons c content =>
      cases first
      exact other _ rfl

theorem scanned_of_instruction (h : (instruction rest).reading = .ok e) : e.Scanned := by
  unfold instruction at h
  split at h
  · cases h
  rename_i other
  split at h
  · cases h
  rename_i content after cut
  have again := instruction_append cut other
  cases declares : isDeclaration content with
  | true =>
    rw [declares] at h again
    cases h
    exact ⟨_, rfl, again⟩
  | false =>
    rw [declares] at h again
    cases h
    exact ⟨_, rfl, again⟩

theorem scanned_of_tag (opens : OpensTag rest) (h : (tag rest).reading = .ok e) : e.Scanned := by
  unfold tag at h
  split at h
  · cases h
  rename_i content after cut
  have content_tag := isTagContent_of_cutTag opens cut
  split at h
  · rename_i closed
    cases h
    obtain ⟨front, rfl⟩ := List.getLast?_eq_some_iff.mp closed
    rw [List.dropLast_concat]
    exact readAs_emptyTag content_tag
  · rename_i unclosed
    cases h
    exact ⟨content_tag, unclosed⟩

theorem isKept_of_doctype (h : (doctype rest).reading = .ok e) : e.isKept = false := by
  unfold doctype at h
  split at h
  · cases h
  split at h
  · split at h <;> cases h
    rfl
  · cases h

theorem scanned_of_bang (h : (bang rest).reading = .ok e) (kept : e.isKept = true) :
    e.Scanned := by
  unfold bang at h
  split at h
  · exact scanned_of_cdata h
  · exact scanned_of_comment h
  · rw [isKept_of_doctype h] at kept
    cases kept
  · rw [isKept_of_doctype h] at kept
    cases kept
  · cases h

theorem scanned_of_construct (h : (construct rest).reading = .ok e) (kept : e.isKept = true) :
    e.Scanned := by
  unfold construct at h
  split at h
  · exact scanned_of_bang h kept
  · exact scanned_of_instruction h
  · exact scanned_of_endTag h
  · rename_i not_bang not_question not_slash
    refine scanned_of_tag ?_ h
    intro c first
    obtain ⟨later, rfl⟩ := List.head?_eq_some_iff.mp first
    refine ⟨?_, ?_, ?_⟩
    · rintro rfl
      exact not_bang later rfl
    · rintro rfl
      exact not_question later rfl
    · rintro rfl
      exact not_slash later rfl

theorem Reader.scanned_of_next {r after : Reader} (h : r.next = some (.ok (e, after)))
    (kept : e.isKept = true) : e.Scanned := by
  obtain ⟨piece, found, h⟩ := Option.map_eq_some_iff.mp h
  have reading : piece.reading = .ok e := by
    split at h
    · cases h
    · split at h <;> cases h
      assumption
  unfold piece? at found
  split at found
  · cases found
  · cases found
    exact scanned_of_construct reading kept
  · rename_i c rest other start
    cases found
    have visible : isBlank c = false := by
      have stops := List.head?_dropWhile_not isBlank r.rest
      rw [start] at stops
      simpa using stops
    obtain ⟨content, same, run⟩ : ∃ content, (text (c :: rest)).reading = .ok (.text content) ∧
      IsRun content := isRun_of_text other visible
    rw [same] at reading
    cases reading
    exact run

end TypedConfig.Markup
