import TypedConfig.Proofs.Reindenting.Forests

namespace TypedConfig.Markup

variable {text laid : List Char} {events : List Event} {forest : List Node} {e : Event}
  {d : Diagnostic}

theorem depthAfter_filter_isKept (events : List Event) (depth : Nat) :
    (events.filter Event.isKept).foldl Event.depthAfter depth =
      events.foldl Event.depthAfter depth := by
  induction events generalizing depth with
  | nil => rfl
  | cons e events ih =>
    cases kept : e.isKept with
    | true => rw [List.filter_cons_of_pos kept, List.foldl_cons, List.foldl_cons, ih]
    | false =>
      rw [List.filter_cons_of_neg (by simp [kept]), List.foldl_cons, ih,
        Event.depthAfter_of_not_isKept kept]

theorem any_beginsElement_filter_isKept (events : List Event) :
    (events.filter Event.isKept).any Event.beginsElement = events.any Event.beginsElement := by
  rw [List.any_filter]
  congr 1
  funext e
  cases kept : e.isKept with
  | true => rfl
  | false => rw [Event.beginsElement_of_not_isKept kept]; rfl

theorem eventOffence?_filter_isKept (events : List Event) :
    eventOffence? [] (events.filter Event.isKept) = eventOffence? [] events := by
  rw [← Layout.failure?_print Layout.follows_start, ← Layout.failure?_print Layout.follows_start,
    Layout.print_filter_isKept]

theorem endOffence?_filter_isKept (events : List Event) :
    endOffence? (events.filter Event.isKept) = endOffence? events := by
  unfold endOffence?
  rw [any_beginsElement_filter_isKept, openAfter, depthAfter_filter_isKept]
  rfl

theorem textOffence?_eq_none_iff :
    textOffence? text = none ↔
      (EventScan.ofText text).fault = none ∧
      eventOffence? [] ((EventScan.ofText text).events.filter Event.isKept) = none ∧
      endOffence? ((EventScan.ofText text).events.filter Event.isKept) = none := by
  rw [eventOffence?_filter_isKept, endOffence?_filter_isKept]
  simp only [textOffence?, Option.or_eq_none_iff]
  cases (EventScan.ofText text).fault <;> simp

theorem eq_nil_of_endOffence? {names : List (List Char)} (nested : nestAll [] events = .ok names)
    (ended : endOffence? events = none) : names = [] := by
  apply Decidable.byContradiction
  intro left
  have inside : openAfter events ≠ 0 := by
    rw [openAfter_eq_length nested]
    simpa using left
  rw [endOffence?, if_pos inside] at ended
  cases ended

theorem isDocument_iff (proper : Node.AllProper forest) :
    isDocument forest = true ↔ eventOffence? [] (Node.allEvents forest) = none ∧
      endOffence? (Node.allEvents forest) = none := by
  have closed : openAfter (Node.allEvents forest) = 0 := Node.depthAfter_allEvents proper 0
  have rooted : (Node.allEvents forest).any Event.beginsElement = forest.any Node.isElement :=
    Node.any_beginsElement_allEvents proper
  have found : forest.any Node.isElement = true ↔ 0 < (forest.filter Node.isElement).length := by
    rw [List.length_filter_pos_iff, List.any_eq_true]
  have ended : endOffence? (Node.allEvents forest) = none ↔ forest.any Node.isElement = true := by
    rw [endOffence?, if_neg (not_not_intro closed), rooted]
    cases forest.any Node.isElement <;> simp
  rw [Node.eventOffence?_allEvents_outside_eq_none_iff proper rfl, ended, found, isDocument]
  simp only [List.any_nil, Bool.toNat_false, Bool.and_eq_true, decide_eq_true_eq,
    Bool.not_eq_true']
  constructor
  · intro h
    exact ⟨⟨h.2, by omega⟩, by omega⟩
  · intro h
    exact ⟨by omega, h.1.1⟩

theorem textOffence?_eq_none_iff_isDocument :
    textOffence? text = none ↔ (EventScan.ofText text).fault = none ∧ ∃ forest,
      Node.ofEvents? ((EventScan.ofText text).events.filter Event.isKept) = some forest ∧
      isDocument forest = true := by
  have kept : ∀ e ∈ (EventScan.ofText text).events.filter Event.isKept, e.isKept = true :=
    fun _ => List.of_mem_filter
  rw [textOffence?_eq_none_iff]
  constructor
  · intro h
    obtain ⟨sound, admitted, ended⟩ := h
    obtain ⟨names, nested⟩ := EventScan.ofText_nests sound
    rw [← nestAll_filter_isKept] at nested
    have closed := eq_nil_of_endOffence? nested ended
    obtain ⟨forest, built⟩ := (Node.exists_ofEvents?_iff kept nested).mpr closed
    obtain ⟨proper, same⟩ := Node.events_of_ofEvents? kept built
    rw [← same] at admitted ended
    exact ⟨sound, forest, built, (isDocument_iff proper).mpr ⟨admitted, ended⟩⟩
  · intro h
    obtain ⟨sound, forest, built, document⟩ := h
    obtain ⟨proper, same⟩ := Node.events_of_ofEvents? kept built
    rw [isDocument_iff proper, same] at document
    exact ⟨sound, document⟩

theorem eq_printAll_of_reindentText (h : reindentText text = .ok laid)
    (built : Node.ofEvents? ((EventScan.ofText text).events.filter Event.isKept) = some forest) :
    laid = declarationLine ++ (Node.printAll false 0 forest).1 ++ ['\n'] := by
  have kept : ∀ e ∈ (EventScan.ofText text).events.filter Event.isKept, e.isKept = true :=
    fun _ => List.of_mem_filter
  obtain ⟨proper, same⟩ := Node.events_of_ofEvents? kept built
  have drawn : draw 0 false (collapse (Node.allEvents forest)) =
      (Node.printAll false 0 forest).1 := by
    have printed := Node.draw_nodes proper 0 false []
    rwa [List.append_nil, collapse, draw, List.append_nil] at printed
  rw [reindentText_ok h, normal, draw_joinTexts, ← same, drawn]

theorem reindentText_eq_ok_iff :
    reindentText text = .ok laid ↔ (EventScan.ofText text).fault = none ∧ ∃ forest,
      Node.ofEvents? ((EventScan.ofText text).events.filter Event.isKept) = some forest ∧
      isDocument forest = true ∧
      laid = declarationLine ++ (Node.printAll false 0 forest).1 ++ ['\n'] := by
  constructor
  · intro h
    have admitted : textOffence? text = none := by rw [← failure?_reindentText, h]; rfl
    obtain ⟨sound, forest, built, document⟩ := textOffence?_eq_none_iff_isDocument.mp admitted
    exact ⟨sound, forest, built, document, eq_printAll_of_reindentText h built⟩
  · intro h
    obtain ⟨sound, forest, built, document, rfl⟩ := h
    have admitted := textOffence?_eq_none_iff_isDocument.mpr ⟨sound, forest, built, document⟩
    rw [← failure?_reindentText, failure?_eq_none_iff] at admitted
    obtain ⟨laid, h⟩ := admitted
    rw [h, eq_printAll_of_reindentText h built]

/-- A text that can be laid out is read to its end, and closes all its elements. -/
theorem nests_of_reindentText (h : reindentText text = .ok laid) :
    (EventScan.ofText text).fault = none ∧ nestAll [] (EventScan.ofText text).events = .ok [] := by
  have admitted : textOffence? text = none := by rw [← failure?_reindentText, h]; rfl
  obtain ⟨sound, -, ended⟩ := textOffence?_eq_none_iff.mp admitted
  obtain ⟨names, nested⟩ := EventScan.ofText_nests sound
  rw [← nestAll_filter_isKept] at nested
  rw [eq_nil_of_endOffence? nested ended, nestAll_filter_isKept] at nested
  exact ⟨sound, nested⟩

theorem reindentText_eq_error_iff :
    reindentText text = .error d ↔ textOffence? text = some d := by
  rw [← failure?_reindentText]
  cases reindentText text <;> simp [failure?]

theorem category_of_offence? {before : List Event} (h : e.offence? before = some d) :
    d.category = .markup := by
  unfold Event.offence? at h
  split at h
  · cases h
  split at h
  · cases h
    rfl
  split at h <;> cases h
  rfl

theorem category_of_eventOffence? {before : List Event}
    (h : eventOffence? before events = some d) : d.category = .markup := by
  induction events generalizing before with
  | nil => cases h
  | cons e events ih =>
    rcases Option.or_eq_some_iff.mp h with here | ⟨-, later⟩
    · exact category_of_offence? here
    · exact ih later

theorem category_of_endOffence? (h : endOffence? events = some d) : d.category = .markup := by
  unfold endOffence? at h
  split at h
  · cases h
    rfl
  split at h <;> cases h
  rfl

theorem category_of_textOffence? (h : textOffence? text = some d) : d.category = .markup := by
  rcases Option.or_eq_some_iff.mp h with here | ⟨-, later⟩
  · exact category_of_eventOffence? here
  · cases fault : (EventScan.ofText text).fault with
    | none =>
      rw [fault] at later
      exact category_of_endOffence? later
    | some found =>
      rw [fault] at later
      cases later
      rfl

/-- Laying out in one pass is to build the forest and to print it then, for exactly the texts whose
forest is one element. -/
theorem reindent_prints_forest (source : String) :
    (∀ laid, reindent source = .ok laid ↔
      (EventScan.ofText source.toList).fault = none ∧ ∃ forest,
        Node.ofEvents? ((EventScan.ofText source.toList).events.filter Event.isKept) =
          some forest ∧
        isDocument forest = true ∧
        laid = String.ofList (declarationLine ++ (Node.printAll false 0 forest).1 ++ ['\n'])) ∧
    ∀ d, reindent source = .error d ↔
      textOffence? source.toList = some d ∧ d.category = .markup := by
  constructor
  · intro laid
    rw [reindent, map_eq_ok_iff]
    constructor
    · intro h
      obtain ⟨text, laid_out, rfl⟩ := h
      obtain ⟨sound, forest, built, document, rfl⟩ := reindentText_eq_ok_iff.mp laid_out
      exact ⟨sound, forest, built, document, rfl⟩
    · intro h
      obtain ⟨sound, forest, built, document, rfl⟩ := h
      exact ⟨_, reindentText_eq_ok_iff.mpr ⟨sound, forest, built, document, rfl⟩, rfl⟩
  · intro d
    rw [reindent, map_eq_error_iff, reindentText_eq_error_iff]
    exact ⟨fun h => ⟨h, category_of_textOffence? h⟩, fun h => h.1⟩

end TypedConfig.Markup
