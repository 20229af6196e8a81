import TypedConfig.Proofs.Reading.Completeness
import TypedConfig.Relocate

namespace TypedConfig

theorem Document.written_of_acceptAll {s : Session} {d : Document} {tokens : List PlacedToken}
    (spelled : ∀ t ∈ tokens, t.token.WellSpelled)
    (h : s.acceptAll .start tokens = .ok (.complete d)) :
    Written d.marks tokens ∧ d.Within s.room := by
  have start : Draft.start.Within s.room := by simp [Draft.start, Draft.Within]
  obtain ⟨within, marks, written, eq⟩ := Session.acceptAll_keeps spelled start h
  have same : d.marks = marks := by simpa [Draft.marks, Draft.start] using eq
  exact ⟨same ▸ written, within⟩

theorem Document.parse_eq_ok_iff_written {source : String} {limit : Nat} {d : Document} :
    Document.parse source limit = .ok d ↔
      ∃ tokens finish, Scan.ofText source.toList = ⟨tokens, .finish finish⟩ ∧
        Written d.marks tokens ∧ d.Within limit := by
  rw [parse_eq_ok_iff_acceptAll]
  constructor
  · intro h
    obtain ⟨tokens, finish, scan, accepted⟩ := h
    have spelled := Scan.wellSpelled_of_ofText scan
    exact ⟨tokens, finish, scan, written_of_acceptAll spelled accepted⟩
  · intro h
    obtain ⟨tokens, finish, scan, written, within⟩ := h
    exact ⟨tokens, finish, scan, Session.acceptAll_document within written⟩

theorem Document.Within.mono {limit limit' : Nat} {d : Document} (h : d.Within limit)
    (le : limit ≤ limit') : d.Within limit' :=
  ⟨fun c member => Nat.le_trans (h.1 c member) le, Nat.le_trans h.2 le⟩

theorem Value.depth_le_itemsDepth {v : Value} {items : List Value} (member : v ∈ items) :
    v.depth ≤ itemsDepth items := by
  induction items with
  | nil => cases member
  | cons item items ih =>
    rw [itemsDepth]
    rcases List.mem_cons.mp member with rfl | member
    · exact Nat.le_max_left _ _
    · exact Nat.le_trans (ih member) (Nat.le_max_right _ _)

theorem Document.exists_within (d : Document) : ∃ limit, d.Within limit := by
  refine ⟨max (Value.itemsDepth (d.constants.map Declaration.value)) d.entry.value.depth, ?_,
    Nat.le_max_right _ _⟩
  intro c member
  have value : c.value ∈ d.constants.map Declaration.value := List.mem_map_of_mem member
  have deep := Value.depth_le_itemsDepth value
  exact Nat.le_trans deep (Nat.le_max_left _ _)

/-- Tokens at fixed places write down one document at most. -/
theorem Document.eq_of_written {d d' : Document} {tokens : List PlacedToken}
    (h : Written d.marks tokens) (h' : Written d'.marks tokens) : d = d' := by
  obtain ⟨limit, within⟩ := d.exists_within
  obtain ⟨limit', within'⟩ := d'.exists_within
  let s : Session := ⟨max limit limit', 0, [], .spent .origin⟩
  have read : s.acceptAll .start tokens = .ok (.complete d) :=
    Session.acceptAll_document (within.mono (Nat.le_max_left limit limit')) h
  have read' : s.acceptAll .start tokens = .ok (.complete d') :=
    Session.acceptAll_document (within'.mono (Nat.le_max_right limit limit')) h'
  rw [read] at read'
  cases read'
  rfl

def Mark.relocate (f : Position → Position) (m : Mark) : Mark :=
  ⟨m.token, m.position.map f⟩

namespace Value

mutual

theorem marks_relocate (f : Position → Position) (v : Value) :
    (v.relocate f).marks = v.marks.map (Mark.relocate f) := by
  match v with
  | .int n => rfl
  | .ref r => rfl
  | .array [] => rfl
  | .array (item :: items) =>
    rw [relocate, relocateItems, marks, marks, marks_relocate f item, itemsMarks_relocate f items,
      List.map_cons, List.map_append]
    rfl
  | .dict [] => rfl
  | .dict ((key, value) :: pairs) =>
    rw [relocate, relocatePairs, marks, marks, marks_relocate f value,
      pairsMarks_relocate f pairs, List.map_cons, List.map_cons, List.map_cons, List.map_append]
    rfl

theorem itemsMarks_relocate (f : Position → Position) (items : List Value) :
    itemsMarks (relocateItems f items) = (itemsMarks items).map (Mark.relocate f) := by
  match items with
  | [] => rfl
  | item :: items =>
    rw [relocateItems, itemsMarks, itemsMarks, marks_relocate f item, itemsMarks_relocate f items,
      List.map_cons, List.map_append]
    rfl

theorem pairsMarks_relocate (f : Position → Position) (pairs : List (String × Value)) :
    pairsMarks (relocatePairs f pairs) = (pairsMarks pairs).map (Mark.relocate f) := by
  match pairs with
  | [] => rfl
  | (key, value) :: pairs =>
    rw [relocatePairs, pairsMarks, pairsMarks, marks_relocate f value, pairsMarks_relocate f pairs,
      List.map_cons, List.map_cons, List.map_cons, List.map_append]
    rfl

end

end Value

namespace Document

theorem marks_relocate (f : Position → Position) (d : Document) :
    (d.relocate f).marks = d.marks.map (Mark.relocate f) := by
  have declaration : ∀ c : Declaration, (c.relocate f).marks = c.marks.map (Mark.relocate f) := by
    intro c
    rw [Declaration.relocate, Declaration.marks, Declaration.marks, Value.marks_relocate]
    rfl
  have entry : (d.entry.relocate f).marks = d.entry.marks.map (Mark.relocate f) := by
    rw [Entry.relocate, Entry.marks, Entry.marks, Value.marks_relocate]
    rfl
  rw [relocate, marks, marks, entry, List.map_append, List.map_flatMap, List.flatMap_map]
  simp only [declaration]

theorem tokens_relocate (f : Position → Position) (d : Document) :
    (d.relocate f).tokens = d.tokens := by
  rw [tokens, tokens, marks_relocate, List.map_map]
  rfl

/-- With all places the same, any tokens of the document write it down there. -/
theorem written_relocate (d : Document) (p : Position) :
    Written (d.relocate fun _ => p).marks (d.tokens.map fun token => ⟨token, p⟩) := by
  rw [marks_relocate, tokens, List.map_map]
  apply List.forall₂_map_left_iff.mpr
  apply List.forall₂_map_right_iff.mpr
  apply List.forall₂_same.mpr
  intro m _
  refine ⟨rfl, ?_⟩
  intro q placed
  obtain ⟨_, -, rfl⟩ := Option.map_eq_some_iff.mp placed
  rfl

theorem tokens_eq_iff {d d' : Document} (p : Position) :
    d.tokens = d'.tokens ↔ (d.relocate fun _ => p) = d'.relocate fun _ => p := by
  constructor
  · intro same
    have written := d.written_relocate p
    rw [same] at written
    exact eq_of_written written (d'.written_relocate p)
  · intro same
    rw [← tokens_relocate (fun _ => p) d, same, tokens_relocate]

end Document

/-- The parser accepts the documents that the tokens of the source write down, if they are not too
deep. -/
theorem parse_accepts_the_grammar :
    (∀ (source : String) (limit : Nat) (d : Document),
      Document.parse source limit = .ok d ↔
        ∃ tokens finish, Scan.ofText source.toList = ⟨tokens, .finish finish⟩ ∧
          tokens.map PlacedToken.token = d.tokens ∧ d.WrittenAs tokens ∧
          (∀ c ∈ d.constants, c.value.depth ≤ limit) ∧ d.entry.value.depth ≤ limit) ∧
    ∀ d d' : Document, d.tokens = d'.tokens ↔
      (d.relocate fun _ => .origin) = d'.relocate fun _ => .origin := by
  constructor
  · intro source limit d
    rw [Document.parse_eq_ok_iff_written]
    constructor
    · intro h
      obtain ⟨tokens, finish, scan, written, within⟩ := h
      exact ⟨tokens, finish, scan, written.map_token_eq,
        Document.writtenAs_iff_written.mpr written, within⟩
    · intro h
      obtain ⟨tokens, finish, scan, -, written, within⟩ := h
      exact ⟨tokens, finish, scan, Document.writtenAs_iff_written.mp written, within⟩
  · intro d d'
    exact Document.tokens_eq_iff .origin

end TypedConfig
