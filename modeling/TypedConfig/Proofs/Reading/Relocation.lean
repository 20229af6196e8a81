import TypedConfig.Proofs.Reading.Runs
import TypedConfig.Relocate

namespace TypedConfig

open Value

namespace Value

mutual

theorem depth_relocate (f : Position → Position) (v : Value) :
    (v.relocate f).depth = v.depth := by
  match v with
  | int _ | ref _ => rfl
  | array items => rw [relocate, depth, depth, itemsDepth_relocate f items]
  | dict pairs => rw [relocate, depth, depth, pairsDepth_relocate f pairs]

theorem itemsDepth_relocate (f : Position → Position) (items : List Value) :
    itemsDepth (relocateItems f items) = itemsDepth items := by
  match items with
  | [] => rfl
  | item :: items =>
    rw [relocateItems, itemsDepth, itemsDepth, depth_relocate f item, itemsDepth_relocate f items]

theorem pairsDepth_relocate (f : Position → Position) (pairs : List (String × Value)) :
    pairsDepth (relocatePairs f pairs) = pairsDepth pairs := by
  match pairs with
  | [] => rfl
  | (key, value) :: pairs =>
    rw [relocatePairs, pairsDepth, pairsDepth, depth_relocate f value,
      pairsDepth_relocate f pairs]

end

theorem relocateItems_append (f : Position → Position) (items later : List Value) :
    relocateItems f (items ++ later) = relocateItems f items ++ relocateItems f later := by
  induction items with
  | nil => rfl
  | cons item items ih => rw [List.cons_append, relocateItems, relocateItems, ih, List.cons_append]

theorem relocatePairs_append (f : Position → Position) (pairs later : List (String × Value)) :
    relocatePairs f (pairs ++ later) = relocatePairs f pairs ++ relocatePairs f later := by
  induction pairs with
  | nil => rfl
  | cons pair pairs ih =>
    obtain ⟨key, value⟩ := pair
    rw [List.cons_append, relocatePairs, relocatePairs, ih, List.cons_append]

end Value

theorem Document.Within.relocate {limit : Nat} {d : Document} (h : d.Within limit)
    (f : Position → Position) : (d.relocate f).Within limit := by
  constructor
  · intro c member
    obtain ⟨declaration, declared, rfl⟩ := List.mem_map.mp member
    rw [Declaration.relocate, depth_relocate]
    exact h.1 declaration declared
  · rw [Document.relocate, Entry.relocate, depth_relocate]
    exact h.2

def PlacedToken.relocate (f : Position → Position) (t : PlacedToken) : PlacedToken :=
  ⟨t.token, f t.position⟩

def Frame.relocate (f : Position → Position) : Frame → Frame
  | array items => array (relocateItems f items)
  | dict pairs key => dict (relocatePairs f pairs) key

def Place.relocate (f : Position → Position) : Place → Place
  | value => value
  | firstItem => firstItem
  | nextItem items => nextItem (relocateItems f items)
  | firstKey => firstKey
  | key pairs => key (relocatePairs f pairs)
  | colon pairs word => colon (relocatePairs f pairs) word
  | nextPair pairs => nextPair (relocatePairs f pairs)
  | refName => refName
  | refClose reference => refClose ⟨reference.name, f reference.position⟩

def ValueDraft.relocate (f : Position → Position) (d : ValueDraft) : ValueDraft :=
  ⟨d.frames.map (Frame.relocate f), d.place.relocate f⟩

def Progress.relocate (f : Position → Position) : Progress → Progress
  | more draft => more (draft.relocate f)
  | done v => done (v.relocate f)

def Subject.relocate (f : Position → Position) : Subject → Subject
  | declaration name p => declaration name (f p)
  | entry name => entry name

def Draft.relocate (f : Position → Position) : Draft → Draft
  | preamble constants => preamble (constants.map (Declaration.relocate f))
  | keyword constants => keyword (constants.map (Declaration.relocate f))
  | value constants subject draft =>
    value (constants.map (Declaration.relocate f)) (subject.relocate f) (draft.relocate f)
  | complete document => complete (document.relocate f)

section

variable (f : Position → Position)

@[simp] theorem ValueDraft.relocate_start : start.relocate f = start := rfl

theorem Draft.relocate_start : start.relocate f = start := rfl

theorem Progress.relocate_ofValue (v : Value) (frames : List Frame) :
    (ofValue v frames).relocate f = ofValue (v.relocate f) (frames.map (Frame.relocate f)) := by
  match frames with
  | [] => rfl
  | .array items :: frames =>
    simp [ofValue, relocate, ValueDraft.relocate, Place.relocate, Frame.relocate,
      relocateItems_append, relocateItems]
  | .dict pairs key :: frames =>
    simp [ofValue, relocate, ValueDraft.relocate, Place.relocate, Frame.relocate,
      relocatePairs_append, relocatePairs]

namespace ValueDraft

theorem startValue?_relocate (frames : List Frame) (t : Token) :
    startValue? (frames.map (Frame.relocate f)) t =
      (startValue? frames t).map (Progress.relocate f) := by
  cases t with
  | number n => exact congrArg some (Progress.relocate_ofValue f (.int n) frames).symm
  | _ => rfl

theorem readKey?_relocate (frames : List Frame) (pairs : List (String × Value)) (t : Token) :
    readKey? (frames.map (Frame.relocate f)) (relocatePairs f pairs) t =
      (readKey? frames pairs t).map (Progress.relocate f) := by
  unfold readKey?
  cases t.asName? <;> rfl

theorem extend?_relocate (d : ValueDraft) (t : Token) (p : Position) :
    (d.relocate f).extend? t (f p) = (d.extend? t p).map (Progress.relocate f) := by
  obtain ⟨frames, place⟩ := d
  have complete (v : Value) :
      some (.ofValue (v.relocate f) (frames.map (Frame.relocate f))) =
        some ((Progress.ofValue v frames).relocate f) :=
    congrArg some (Progress.relocate_ofValue f v frames).symm
  cases place with
  | value => exact startValue?_relocate f frames t
  | firstItem =>
    by_cases closed : t = .closeBracket
    · rw [closed]
      exact complete (.array [])
    · have start := startValue?_relocate f (.array [] :: frames) t
      simpa [extend?, relocate, Place.relocate, Frame.relocate, relocateItems, closed] using start
  | nextItem items =>
    cases t with
    | closeBracket => exact complete (.array items)
    | _ => rfl
  | firstKey =>
    by_cases closed : t = .closeBrace
    · rw [closed]
      exact complete (.dict [])
    · have start := readKey?_relocate f frames [] t
      simpa [extend?, relocate, Place.relocate, relocatePairs, closed] using start
  | key pairs => exact readKey?_relocate f frames pairs t
  | colon pairs word => cases t <;> rfl
  | nextPair pairs =>
    cases t with
    | closeBrace => exact complete (.dict pairs)
    | _ => rfl
  | refName => cases t <;> rfl
  | refClose reference =>
    cases t with
    | pipe => exact complete (.ref reference)
    | _ => rfl

end ValueDraft

namespace Draft

theorem relocate_ofProgress (constants : List Declaration) (subject : Subject)
    (progress : Progress) :
    (ofProgress constants subject progress).relocate f =
      ofProgress (constants.map (Declaration.relocate f)) (subject.relocate f)
        (progress.relocate f) := by
  cases progress with
  | more draft => rfl
  | done v =>
    cases subject with
    | declaration name p =>
      simp [ofProgress, relocate, Subject.relocate, Progress.relocate, Declaration.relocate]
    | entry name => rfl

theorem extend?_relocate (d : Draft) (t : Token) (p : Position) :
    (d.relocate f).extend? t (f p) = (d.extend? t p).map (Draft.relocate f) := by
  have progress (constants : List Declaration) (subject : Subject) (draft : ValueDraft) :
      ((draft.relocate f).extend? t (f p)).map
          (ofProgress (constants.map (Declaration.relocate f)) (subject.relocate f)) =
        ((draft.extend? t p).map (ofProgress constants subject)).map (Draft.relocate f) := by
    rw [ValueDraft.extend?_relocate, Option.map_map, Option.map_map]
    apply congrArg (Option.map · _)
    funext progress
    exact (relocate_ofProgress f constants subject progress).symm
  cases d with
  | preamble constants => cases t <;> rfl
  | keyword constants =>
    cases named : t.asName? with
    | some name => simp [extend?, relocate, named, Subject.relocate]
    | none =>
      have unnamed := progress constants (.entry "var") .start
      simpa [extend?, relocate, named, Subject.relocate] using unnamed
  | value constants subject draft => exact progress constants subject draft
  | complete document => rfl

theorem containers_relocate (d : Draft) : (d.relocate f).containers = d.containers := by
  cases d with
  | value constants subject draft =>
    obtain ⟨frames, place⟩ := draft
    have inner : (place.relocate f).containers = place.containers := by cases place <;> rfl
    simp [containers, ValueDraft.containers, relocate, ValueDraft.relocate, inner]
  | _ => rfl

theorem awaitsValue_relocate (d : Draft) : (d.relocate f).awaitsValue = d.awaitsValue := by
  cases d with
  | value constants subject draft =>
    obtain ⟨frames, place⟩ := draft
    cases place <;> rfl
  | _ => rfl

theorem expectation_relocate (d : Draft) : (d.relocate f).expectation = d.expectation := by
  cases d with
  | value constants subject draft =>
    obtain ⟨frames, place⟩ := draft
    cases place <;> rfl
  | _ => rfl

end Draft

theorem Expectation.relocate_diagnostic (e : Expectation) (found : Option Token) (p : Position) :
    (e.diagnostic found p).relocate f = e.diagnostic found (f p) := by
  unfold diagnostic
  split <;> rfl

namespace Session

variable (s : Session)

theorem accept_relocate (d : Draft) (t : PlacedToken) :
    s.accept (d.relocate f) (t.relocate f) =
      ((s.accept d t).map (Draft.relocate f)).mapError (Diagnostic.relocate f) := by
  unfold accept
  rw [Draft.containers_relocate, Draft.awaitsValue_relocate, Draft.expectation_relocate,
    PlacedToken.relocate, Draft.extend?_relocate]
  split
  · rfl
  · cases d.extend? t.token t.position with
    | some next => rfl
    | none => exact congrArg Except.error (Expectation.relocate_diagnostic f _ _ _).symm

theorem acceptAll_relocate (d : Draft) (tokens : List PlacedToken) :
    s.acceptAll (d.relocate f) (tokens.map (PlacedToken.relocate f)) =
      ((s.acceptAll d tokens).map (Draft.relocate f)).mapError (Diagnostic.relocate f) := by
  induction tokens generalizing d with
  | nil => rfl
  | cons t tokens ih =>
    rw [List.map_cons, acceptAll_cons, acceptAll_cons, accept_relocate]
    cases s.accept d t with
    | ok next => exact ih next
    | error problem => rfl

end Session

end

end TypedConfig
