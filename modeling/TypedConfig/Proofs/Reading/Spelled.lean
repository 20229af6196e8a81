import TypedConfig.Proofs.Reading.Parse

namespace TypedConfig

namespace Value

mutual

def KeysSpelled : Value → Prop
  | int _ | ref _ => True
  | array items => ItemsKeysSpelled items
  | dict pairs => PairsKeysSpelled pairs

def ItemsKeysSpelled : List Value → Prop
  | [] => True
  | item :: items => item.KeysSpelled ∧ ItemsKeysSpelled items

def PairsKeysSpelled : List (String × Value) → Prop
  | [] => True
  | (key, value) :: pairs =>
    Text.isWord key.toList = true ∧ value.KeysSpelled ∧ PairsKeysSpelled pairs

end

end Value

def MarksSpelled (marks : List Mark) : Prop :=
  ∀ mark ∈ marks, mark.token.WellSpelled

theorem marksSpelled_cons {mark : Mark} {marks : List Mark} :
    MarksSpelled (mark :: marks) ↔ mark.token.WellSpelled ∧ MarksSpelled marks :=
  List.forall_mem_cons

theorem marksSpelled_append {first later : List Mark} :
    MarksSpelled (first ++ later) ↔ MarksSpelled first ∧ MarksSpelled later :=
  List.forall_mem_append

theorem Written.marksSpelled {marks : List Mark} {tokens : List PlacedToken}
    (h : Written marks tokens) (spelled : ∀ t ∈ tokens, t.token.WellSpelled) :
    MarksSpelled marks := by
  induction h with
  | nil =>
    intro mark member
    cases member
  | cons fits _ ih =>
    rw [List.forall_mem_cons] at spelled
    rw [marksSpelled_cons, fits.1]
    exact ⟨spelled.1, ih spelled.2⟩

theorem isWord_of_name_spelled {name : String} (h : (Mark.name name).token.WellSpelled) :
    Text.isWord name.toList = true :=
  Token.isWord_of_asName? h (Token.asName?_ofWord name)

namespace Value

mutual

theorem keysSpelled_of_marks {v : Value} (h : MarksSpelled v.marks) : v.KeysSpelled := by
  match v with
  | int _ | ref _ | array [] | dict [] => exact True.intro
  | array (item :: items) =>
    rw [marks, marksSpelled_cons, marksSpelled_append] at h
    exact ⟨keysSpelled_of_marks h.2.1, itemsKeysSpelled_of_marks h.2.2⟩
  | dict ((key, value) :: pairs) =>
    rw [marks, marksSpelled_cons, marksSpelled_cons, marksSpelled_cons, marksSpelled_append] at h
    obtain ⟨-, name, -, first, later⟩ := h
    exact ⟨isWord_of_name_spelled name, keysSpelled_of_marks first,
      pairsKeysSpelled_of_marks later⟩

theorem itemsKeysSpelled_of_marks {items : List Value} (h : MarksSpelled (itemsMarks items)) :
    ItemsKeysSpelled items := by
  cases items with
  | nil => exact True.intro
  | cons item items =>
    rw [itemsMarks, marksSpelled_cons, marksSpelled_append] at h
    exact ⟨keysSpelled_of_marks h.2.1, itemsKeysSpelled_of_marks h.2.2⟩

theorem pairsKeysSpelled_of_marks {pairs : List (String × Value)}
    (h : MarksSpelled (pairsMarks pairs)) : PairsKeysSpelled pairs := by
  match pairs with
  | [] => exact True.intro
  | (key, value) :: pairs =>
    rw [pairsMarks, marksSpelled_cons, marksSpelled_cons, marksSpelled_cons,
      marksSpelled_append] at h
    obtain ⟨-, name, -, first, later⟩ := h
    exact ⟨isWord_of_name_spelled name, keysSpelled_of_marks first,
      pairsKeysSpelled_of_marks later⟩

end

end Value

namespace Document

structure NamesSpelled (d : Document) : Prop where
  entryName : Text.isWord d.entry.name.toList = true
  entryKeys : d.entry.value.KeysSpelled
  constantKeys : ∀ c ∈ d.constants, c.value.KeysSpelled

theorem namesSpelled_of_marks {d : Document} (h : MarksSpelled d.marks) : d.NamesSpelled := by
  rw [marks, marksSpelled_append, Entry.marks, marksSpelled_cons] at h
  obtain ⟨constants, name, value⟩ := h
  refine ⟨isWord_of_name_spelled name, Value.keysSpelled_of_marks value, ?_⟩
  intro c member
  apply Value.keysSpelled_of_marks
  intro mark inside
  apply constants mark
  have later : mark ∈ c.marks := by
    rw [Declaration.marks]
    exact List.mem_cons_of_mem _ (List.mem_cons_of_mem _ inside)
  exact List.mem_flatMap.mpr ⟨c, member, later⟩

theorem marksSpelled_of_parse {source : String} {limit : Nat} {d : Document}
    (h : Document.parse source limit = .ok d) : MarksSpelled d.marks := by
  obtain ⟨tokens, finish, scan, written, -⟩ := parse_eq_ok_iff_written.mp h
  exact written.marksSpelled (Scan.wellSpelled_of_ofText scan)

theorem namesSpelled_of_parse {source : String} {limit : Nat} {d : Document}
    (h : Document.parse source limit = .ok d) : d.NamesSpelled :=
  namesSpelled_of_marks (marksSpelled_of_parse h)

end Document

end TypedConfig
