import Mathlib.Data.List.Forall2
import TypedConfig.Document.Draft
import TypedConfig.Document.Spelling

namespace TypedConfig

abbrev Written (marks : List Mark) (tokens : List PlacedToken) : Prop :=
  List.Forall₂ Mark.Fits marks tokens

theorem Document.writtenAs_iff_written {d : Document} {tokens : List PlacedToken} :
    d.WrittenAs tokens ↔ Written d.marks tokens := by
  rw [Document.WrittenAs, Written, List.forall₂_iff_zip, Prod.forall]

namespace Mark

@[simp] theorem fits_free {token : Token} {t : PlacedToken} :
    (free token).Fits t ↔ token = t.token := by
  simp [Fits, free]

@[simp] theorem fits_name {text : String} {t : PlacedToken} :
    (name text).Fits t ↔ Token.ofWord text = t.token := by
  simp [Fits, name]

@[simp] theorem fits_placedName {text : String} {p : Position} {t : PlacedToken} :
    (placedName text p).Fits t ↔ Token.ofWord text = t.token ∧ p = t.position := by
  simp [Fits, placedName]

end Mark

namespace Written

theorem map_token_eq {marks : List Mark} {tokens : List PlacedToken} (h : Written marks tokens) :
    tokens.map PlacedToken.token = marks.map Mark.token := by
  induction h with
  | nil => rfl
  | cons fits _ ih => rw [List.map_cons, List.map_cons, ih, fits.1]

theorem free {token : Token} {marks : List Mark} {tokens : List PlacedToken}
    (h : Written (.free token :: marks) tokens) :
    ∃ p rest, tokens = ⟨token, p⟩ :: rest ∧ Written marks rest := by
  obtain ⟨⟨_, p⟩, rest, fits, written, rfl⟩ := List.forall₂_cons_left_iff.mp h
  obtain rfl := Mark.fits_free.mp fits
  exact ⟨p, rest, rfl, written⟩

theorem name {text : String} {marks : List Mark} {tokens : List PlacedToken}
    (h : Written (.name text :: marks) tokens) :
    ∃ p rest, tokens = ⟨.ofWord text, p⟩ :: rest ∧ Written marks rest := by
  obtain ⟨⟨_, p⟩, rest, fits, written, rfl⟩ := List.forall₂_cons_left_iff.mp h
  obtain rfl := Mark.fits_name.mp fits
  exact ⟨p, rest, rfl, written⟩

theorem placedName {text : String} {p : Position} {marks : List Mark}
    {tokens : List PlacedToken} (h : Written (.placedName text p :: marks) tokens) :
    ∃ rest, tokens = ⟨.ofWord text, p⟩ :: rest ∧ Written marks rest := by
  obtain ⟨⟨_, _⟩, rest, fits, written, rfl⟩ := List.forall₂_cons_left_iff.mp h
  obtain ⟨rfl, rfl⟩ := Mark.fits_placedName.mp fits
  exact ⟨rest, rfl, written⟩

theorem split {first second : List Mark} {tokens : List PlacedToken}
    (h : Written (first ++ second) tokens) :
    ∃ left right, tokens = left ++ right ∧ Written first left ∧ Written second right := by
  induction first generalizing tokens with
  | nil => exact ⟨[], tokens, rfl, .nil, h⟩
  | cons mark first ih =>
    obtain ⟨t, rest, fits, written, rfl⟩ := List.forall₂_cons_left_iff.mp h
    obtain ⟨left, right, rfl, hl, hr⟩ := ih written
    exact ⟨t :: left, right, rfl, .cons fits hl, hr⟩

end Written

namespace Value

def pairMarks (pair : String × Value) : List Mark :=
  .name pair.1 :: .free .colon :: pair.2.marks

def openArrayMarks : List Value → List Mark
  | [] => [.free .openBracket]
  | item :: items =>
    .free .openBracket :: (item.marks ++ items.flatMap fun item => .free .comma :: item.marks)

def openDictMarks : List (String × Value) → List Mark
  | [] => [.free .openBrace]
  | pair :: pairs =>
    .free .openBrace ::
      (pairMarks pair ++ pairs.flatMap fun pair => .free .semicolon :: pairMarks pair)

def separatorMarks {α : Type} (separator : Token) (elements : List α) : List Mark :=
  if elements.isEmpty then [] else [.free separator]

theorem itemsMarks_eq (items : List Value) :
    itemsMarks items =
      items.flatMap (fun item => .free .comma :: item.marks) ++ [.free .closeBracket] := by
  induction items with
  | nil => rfl
  | cons item items ih => simp [itemsMarks, ih]

theorem pairsMarks_eq (pairs : List (String × Value)) :
    pairsMarks pairs =
      pairs.flatMap (fun pair => .free .semicolon :: pairMarks pair) ++ [.free .closeBrace] := by
  induction pairs with
  | nil => rfl
  | cons pair pairs ih => simp [pairsMarks, pairMarks, ih]

theorem marks_array (items : List Value) :
    (array items).marks = openArrayMarks items ++ [.free .closeBracket] := by
  cases items with
  | nil => rfl
  | cons item items => simp [marks, openArrayMarks, itemsMarks_eq]

theorem marks_dict (pairs : List (String × Value)) :
    (dict pairs).marks = openDictMarks pairs ++ [.free .closeBrace] := by
  cases pairs with
  | nil => rfl
  | cons pair pairs =>
    obtain ⟨key, value⟩ := pair
    simp [marks, openDictMarks, pairMarks, pairsMarks_eq]

theorem openArrayMarks_append (items : List Value) (v : Value) :
    openArrayMarks (items ++ [v]) =
      openArrayMarks items ++ separatorMarks .comma items ++ v.marks := by
  cases items <;> simp [openArrayMarks, separatorMarks]

theorem openDictMarks_append (pairs : List (String × Value)) (key : String) (v : Value) :
    openDictMarks (pairs ++ [(key, v)]) =
      openDictMarks pairs ++ separatorMarks .semicolon pairs ++
        [.name key, .free .colon] ++ v.marks := by
  cases pairs <;> simp [openDictMarks, separatorMarks, pairMarks]

end Value

open Value

def Frame.marks : Frame → List Mark
  | .array items => openArrayMarks items ++ separatorMarks .comma items
  | .dict pairs key =>
    openDictMarks pairs ++ separatorMarks .semicolon pairs ++ [.name key, .free .colon]

def framesMarks (frames : List Frame) : List Mark :=
  frames.reverse.flatMap Frame.marks

@[simp] theorem framesMarks_nil : framesMarks [] = [] := rfl

@[simp] theorem framesMarks_cons (frame : Frame) (frames : List Frame) :
    framesMarks (frame :: frames) = framesMarks frames ++ frame.marks := by
  simp [framesMarks]

def Place.marks : Place → List Mark
  | .value => []
  | .firstItem => openArrayMarks []
  | .nextItem items => openArrayMarks items
  | .firstKey => openDictMarks []
  | .key pairs => openDictMarks pairs ++ [.free .semicolon]
  | .colon pairs word => openDictMarks pairs ++ separatorMarks .semicolon pairs ++ [.name word]
  | .nextPair pairs => openDictMarks pairs
  | .refName => [.free .pipe]
  | .refClose reference => [.free .pipe, .placedName reference.name reference.position]

def ValueDraft.marks (d : ValueDraft) : List Mark :=
  framesMarks d.frames ++ d.place.marks

def Progress.marks : Progress → List Mark
  | .more draft => draft.marks
  | .done v => v.marks

theorem Progress.marks_ofValue (v : Value) (frames : List Frame) :
    (ofValue v frames).marks = framesMarks frames ++ v.marks := by
  match frames with
  | [] => rfl
  | .array items :: frames =>
    simp [ofValue, marks, ValueDraft.marks, Place.marks, Frame.marks, openArrayMarks_append]
  | .dict pairs key :: frames =>
    simp [ofValue, marks, ValueDraft.marks, Place.marks, Frame.marks, openDictMarks_append]

def Subject.marks : Subject → List Mark
  | .declaration name position => [.free .var, .placedName name position]
  | .entry name => [.name name]

def Draft.marks : Draft → List Mark
  | .preamble constants => constants.flatMap Declaration.marks
  | .keyword constants => constants.flatMap Declaration.marks ++ [.free .var]
  | .value constants subject draft =>
    constants.flatMap Declaration.marks ++ subject.marks ++ draft.marks
  | .complete document => document.marks

theorem Draft.marks_ofProgress (constants : List Declaration) (subject : Subject)
    (progress : Progress) :
    (ofProgress constants subject progress).marks =
      constants.flatMap Declaration.marks ++ subject.marks ++ progress.marks := by
  cases progress with
  | more draft => rfl
  | done v =>
    cases subject <;>
      simp [ofProgress, marks, Subject.marks, Progress.marks, Declaration.marks, Document.marks,
        Entry.marks]

end TypedConfig
