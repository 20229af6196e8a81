import TypedConfig.Proofs.Except
import TypedConfig.Proofs.Lexing.Lexemes
import TypedConfig.Proofs.Reading.Marks
import TypedConfig.Session

namespace TypedConfig

open Value

theorem Value.itemsDepth_append (items : List Value) (v : Value) :
    itemsDepth (items ++ [v]) = max (itemsDepth items) v.depth := by
  induction items with
  | nil => simp [itemsDepth]
  | cons item items ih => rw [List.cons_append, itemsDepth, itemsDepth, ih, Nat.max_assoc]

theorem Value.pairsDepth_append (pairs : List (String × Value)) (key : String) (v : Value) :
    pairsDepth (pairs ++ [(key, v)]) = max (pairsDepth pairs) v.depth := by
  induction pairs with
  | nil => simp [pairsDepth]
  | cons pair pairs ih => rw [List.cons_append, pairsDepth, pairsDepth, ih, Nat.max_assoc]

def Frame.depth : Frame → Nat
  | .array items => itemsDepth items
  | .dict pairs _ => pairsDepth pairs

/-- No container around the point of reading holds a value that lies deeper than `limit`. -/
def framesWithin (limit : Nat) : List Frame → Prop
  | [] => True
  | frame :: frames => frames.length + 1 + frame.depth ≤ limit ∧ framesWithin limit frames

/-- The same of the innermost container, which `level` others surround. A separator has been read
only after an element. -/
def Place.Within (limit level : Nat) : Place → Prop
  | .value | .refName | .refClose _ => True
  | .firstItem | .firstKey => level + 1 ≤ limit
  | .nextItem items => items ≠ [] ∧ level + 1 + itemsDepth items ≤ limit
  | .key pairs | .nextPair pairs => pairs ≠ [] ∧ level + 1 + pairsDepth pairs ≤ limit
  | .colon pairs _ => level + 1 + pairsDepth pairs ≤ limit

def ValueDraft.Within (limit : Nat) (d : ValueDraft) : Prop :=
  framesWithin limit d.frames ∧ d.place.Within limit d.frames.length

def Progress.Within (limit : Nat) : Progress → Prop
  | .more draft => draft.Within limit
  | .done v => v.depth ≤ limit

def Document.Within (limit : Nat) (d : Document) : Prop :=
  (∀ c ∈ d.constants, c.value.depth ≤ limit) ∧ d.entry.value.depth ≤ limit

def Draft.Within (limit : Nat) : Draft → Prop
  | .preamble constants | .keyword constants => ∀ c ∈ constants, c.value.depth ≤ limit
  | .value constants _ draft => (∀ c ∈ constants, c.value.depth ≤ limit) ∧ draft.Within limit
  | .complete document => document.Within limit

theorem framesWithin.length_le {limit : Nat} {frames : List Frame}
    (h : framesWithin limit frames) : frames.length ≤ limit := by
  cases frames with
  | nil => exact Nat.zero_le limit
  | cons frame frames =>
    have innermost := h.1
    rw [List.length_cons]
    omega

theorem Progress.ofValue_within {limit : Nat} {frames : List Frame} {v : Value}
    (within : framesWithin limit frames) (depth : frames.length + v.depth ≤ limit) :
    (ofValue v frames).Within limit := by
  match frames with
  | [] => simpa [ofValue, Within] using depth
  | .array items :: frames =>
    obtain ⟨innermost, outer⟩ := within
    rw [Frame.depth] at innermost
    rw [List.length_cons] at depth
    refine ⟨outer, by simp, ?_⟩
    show frames.length + 1 + itemsDepth (items ++ [v]) ≤ limit
    rw [itemsDepth_append]
    omega
  | .dict pairs key :: frames =>
    obtain ⟨innermost, outer⟩ := within
    rw [Frame.depth] at innermost
    rw [List.length_cons] at depth
    refine ⟨outer, by simp, ?_⟩
    show frames.length + 1 + pairsDepth (pairs ++ [(key, v)]) ≤ limit
    rw [pairsDepth_append]
    omega

theorem Draft.ofProgress_within {limit : Nat} {constants : List Declaration} {subject : Subject}
    {progress : Progress} (before : ∀ c ∈ constants, c.value.depth ≤ limit)
    (h : progress.Within limit) : (ofProgress constants subject progress).Within limit := by
  cases progress with
  | more draft => exact ⟨before, h⟩
  | done v =>
    cases subject with
    | declaration name position =>
      intro c member
      rcases List.mem_append.mp member with member | member
      · exact before c member
      · rw [List.mem_singleton.mp member]
        exact h
    | entry name => exact ⟨before, h⟩

namespace ValueDraft

theorem startValue?_keeps {limit : Nat} {frames : List Frame} {t : PlacedToken}
    {progress : Progress} (within : framesWithin limit frames)
    (room : t.token.opensContainer = true → frames.length < limit)
    (h : startValue? frames t.token = some progress) :
    progress.Within limit ∧
      ∃ mark : Mark, mark.Fits t ∧ progress.marks = framesMarks frames ++ [mark] := by
  cases token : t.token with
  | number n =>
    rw [token] at h
    cases h
    have depth : frames.length + (int n).depth ≤ limit := within.length_le
    refine ⟨Progress.ofValue_within within depth, .free (.number n), ?_, ?_⟩
    · rw [Mark.fits_free, token]
    · rw [Progress.marks_ofValue, Value.marks]
  | openBracket =>
    have inside : frames.length < limit := room (by rw [token]; rfl)
    rw [token] at h
    cases h
    exact ⟨⟨within, inside⟩, .free .openBracket, Mark.fits_free.mpr token.symm, rfl⟩
  | openBrace =>
    have inside : frames.length < limit := room (by rw [token]; rfl)
    rw [token] at h
    cases h
    exact ⟨⟨within, inside⟩, .free .openBrace, Mark.fits_free.mpr token.symm, rfl⟩
  | pipe =>
    rw [token] at h
    cases h
    exact ⟨⟨within, True.intro⟩, .free .pipe, Mark.fits_free.mpr token.symm, rfl⟩
  | _ =>
    rw [token] at h
    cases h

theorem readKey?_keeps {limit : Nat} {frames : List Frame} {pairs : List (String × Value)}
    {t : PlacedToken} {progress : Progress} (spelled : t.token.WellSpelled)
    (within : framesWithin limit frames) (depth : frames.length + 1 + pairsDepth pairs ≤ limit)
    (h : readKey? frames pairs t.token = some progress) :
    progress.Within limit ∧
      ∃ mark : Mark, mark.Fits t ∧ progress.marks =
        framesMarks frames ++ (openDictMarks pairs ++ separatorMarks .semicolon pairs) ++
          [mark] := by
  obtain ⟨key, name, rfl⟩ := Option.map_eq_some_iff.mp h
  refine ⟨⟨within, depth⟩, .name key, ?_, ?_⟩
  · exact Mark.fits_name.mpr (Token.eq_ofWord_of_asName? spelled name).symm
  · simp [Progress.marks, marks, Place.marks]

theorem closeArray_keeps {limit : Nat} {frames : List Frame} {items : List Value} {t : PlacedToken}
    (within : framesWithin limit frames) (depth : frames.length + 1 + itemsDepth items ≤ limit)
    (closed : t.token = .closeBracket) :
    (Progress.ofValue (.array items) frames).Within limit ∧
      ∃ mark : Mark, mark.Fits t ∧ (Progress.ofValue (.array items) frames).marks =
        framesMarks frames ++ openArrayMarks items ++ [mark] := by
  refine ⟨Progress.ofValue_within within ?_, .free .closeBracket, ?_, ?_⟩
  · rwa [Value.depth, ← Nat.add_assoc]
  · exact Mark.fits_free.mpr closed.symm
  · rw [Progress.marks_ofValue, marks_array, List.append_assoc]

theorem closeDict_keeps {limit : Nat} {frames : List Frame} {pairs : List (String × Value)}
    {t : PlacedToken} (within : framesWithin limit frames)
    (depth : frames.length + 1 + pairsDepth pairs ≤ limit) (closed : t.token = .closeBrace) :
    (Progress.ofValue (.dict pairs) frames).Within limit ∧
      ∃ mark : Mark, mark.Fits t ∧ (Progress.ofValue (.dict pairs) frames).marks =
        framesMarks frames ++ openDictMarks pairs ++ [mark] := by
  refine ⟨Progress.ofValue_within within ?_, .free .closeBrace, ?_, ?_⟩
  · rwa [Value.depth, ← Nat.add_assoc]
  · exact Mark.fits_free.mpr closed.symm
  · rw [Progress.marks_ofValue, marks_dict, List.append_assoc]

/-- What a token at `p` can make of a value that is being read inside `frames`. -/
inductive Step (frames : List Frame) (p : Position) : Place → Token → Progress → Prop where
  | value {t : Token} {progress : Progress} (h : startValue? frames t = some progress) :
    Step frames p .value t progress
  | firstItem {t : Token} {progress : Progress}
    (h : startValue? (.array [] :: frames) t = some progress) : Step frames p .firstItem t progress
  | emptyArray : Step frames p .firstItem .closeBracket (.ofValue (.array []) frames)
  | comma (items : List Value) :
    Step frames p (.nextItem items) .comma (.more ⟨.array items :: frames, .value⟩)
  | closeArray (items : List Value) :
    Step frames p (.nextItem items) .closeBracket (.ofValue (.array items) frames)
  | firstKey {t : Token} {progress : Progress} (h : readKey? frames [] t = some progress) :
    Step frames p .firstKey t progress
  | emptyDict : Step frames p .firstKey .closeBrace (.ofValue (.dict []) frames)
  | key {pairs : List (String × Value)} {t : Token} {progress : Progress}
    (h : readKey? frames pairs t = some progress) : Step frames p (.key pairs) t progress
  | colon (pairs : List (String × Value)) (key : String) :
    Step frames p (.colon pairs key) .colon (.more ⟨.dict pairs key :: frames, .value⟩)
  | semicolon (pairs : List (String × Value)) :
    Step frames p (.nextPair pairs) .semicolon (.more ⟨frames, .key pairs⟩)
  | closeDict (pairs : List (String × Value)) :
    Step frames p (.nextPair pairs) .closeBrace (.ofValue (.dict pairs) frames)
  | refName {t : Token} (name : String) (h : t.asName? = some name) :
    Step frames p .refName t (.more ⟨frames, .refClose ⟨name, p⟩⟩)
  | refClose (reference : Reference) :
    Step frames p (.refClose reference) .pipe (.ofValue (.ref reference) frames)

theorem step_of_extend? {frames : List Frame} {place : Place} {t : Token} {p : Position}
    {progress : Progress} (h : extend? ⟨frames, place⟩ t p = some progress) :
    Step frames p place t progress := by
  cases place with
  | value => exact .value h
  | firstItem =>
    by_cases closed : t = .closeBracket
    · subst closed
      cases h
      exact .emptyArray
    · exact .firstItem (by simpa [extend?, closed] using h)
  | nextItem items =>
    cases t <;> cases h
    · exact .closeArray items
    · exact .comma items
  | firstKey =>
    by_cases closed : t = .closeBrace
    · subst closed
      cases h
      exact .emptyDict
    · exact .firstKey (by simpa [extend?, closed] using h)
  | key pairs => exact .key h
  | colon pairs key =>
    cases t <;> cases h
    exact .colon pairs key
  | nextPair pairs =>
    cases t <;> cases h
    · exact .closeDict pairs
    · exact .semicolon pairs
  | refName =>
    obtain ⟨name, named, rfl⟩ := Option.map_eq_some_iff.mp h
    exact .refName name named
  | refClose reference =>
    cases t <;> cases h
    exact .refClose reference

theorem extend?_keeps {limit : Nat} {d : ValueDraft} {t : PlacedToken} {progress : Progress}
    (spelled : t.token.WellSpelled) (within : d.Within limit)
    (room : d.place.awaitsValue = true → t.token.opensContainer = true → d.containers < limit)
    (h : d.extend? t.token t.position = some progress) :
    progress.Within limit ∧ ∃ mark : Mark, mark.Fits t ∧ progress.marks = d.marks ++ [mark] := by
  obtain ⟨frames, place⟩ := d
  obtain ⟨token, p⟩ := t
  obtain ⟨outer, inner⟩ := within
  have step : Step frames p place token progress := step_of_extend? h
  cases step with
  | value h => simpa [marks, Place.marks] using startValue?_keeps outer (room rfl) h
  | firstItem h =>
    have around : framesWithin limit (.array [] :: frames) := ⟨inner, outer⟩
    have kept := startValue?_keeps around (room rfl) h
    simpa [marks, Place.marks, Frame.marks, separatorMarks] using kept
  | emptyArray =>
    have depth : frames.length + 1 + itemsDepth [] ≤ limit := inner
    exact closeArray_keeps outer depth rfl
  | comma items =>
    obtain ⟨nonempty, depth⟩ := inner
    refine ⟨⟨⟨depth, outer⟩, True.intro⟩, .free .comma, Mark.fits_free.mpr rfl, ?_⟩
    simp [Progress.marks, marks, Place.marks, Frame.marks, separatorMarks, nonempty]
  | closeArray items => exact closeArray_keeps outer inner.2 rfl
  | firstKey h =>
    have depth : frames.length + 1 + pairsDepth [] ≤ limit := inner
    have kept := readKey?_keeps spelled outer depth h
    simpa [marks, Place.marks, separatorMarks] using kept
  | emptyDict =>
    have depth : frames.length + 1 + pairsDepth [] ≤ limit := inner
    exact closeDict_keeps outer depth rfl
  | key h =>
    obtain ⟨nonempty, depth⟩ := inner
    have kept := readKey?_keeps spelled outer depth h
    simpa [marks, Place.marks, separatorMarks, nonempty] using kept
  | colon pairs key =>
    refine ⟨⟨⟨inner, outer⟩, True.intro⟩, .free .colon, Mark.fits_free.mpr rfl, ?_⟩
    simp [Progress.marks, marks, Place.marks, Frame.marks]
  | semicolon pairs =>
    refine ⟨⟨outer, inner⟩, .free .semicolon, Mark.fits_free.mpr rfl, ?_⟩
    simp [Progress.marks, marks, Place.marks]
  | closeDict pairs => exact closeDict_keeps outer inner.2 rfl
  | refName name named =>
    refine ⟨⟨outer, True.intro⟩, .placedName name p, ?_, ?_⟩
    · exact Mark.fits_placedName.mpr ⟨(Token.eq_ofWord_of_asName? spelled named).symm, rfl⟩
    · simp [Progress.marks, marks, Place.marks]
  | refClose reference =>
    refine ⟨Progress.ofValue_within outer outer.length_le, .free .pipe, Mark.fits_free.mpr rfl, ?_⟩
    simp [Progress.marks_ofValue, marks, Place.marks, Value.marks]

end ValueDraft

end TypedConfig
