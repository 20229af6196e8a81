import TypedConfig.Proofs.Reindenting.Drawing
import TypedConfig.Proofs.Reindenting.Nesting

namespace TypedConfig.Markup

namespace Node

mutual

def events : Node → List Event
  | element content name children => .startTag content :: (allEvents children ++ [.endTag name])
  | single e => [e]

def allEvents : List Node → List Event
  | [] => []
  | node :: nodes => node.events ++ allEvents nodes

end

mutual

def IsProper : Node → Prop
  | element _ _ children => AllProper children
  | single e => e.standsAlone = true

def AllProper : List Node → Prop
  | [] => True
  | node :: nodes => node.IsProper ∧ AllProper nodes

end

theorem allProper_nil : AllProper [] := True.intro

theorem allEvents_append (nodes more : List Node) :
    allEvents (nodes ++ more) = allEvents nodes ++ allEvents more := by
  induction nodes with
  | nil => rfl
  | cons node nodes ih => simp only [List.cons_append, allEvents, ih, List.append_assoc]

theorem allProper_append_iff {nodes more : List Node} :
    AllProper (nodes ++ more) ↔ AllProper nodes ∧ AllProper more := by
  induction nodes with
  | nil => simp [AllProper]
  | cons node nodes ih => simp only [List.cons_append, AllProper, ih, and_assoc]

/-- The events from the start of the text to the innermost element that is open. -/
def outerEvents : List (List Char × List Node) → List Event
  | [] => []
  | (content, before) :: outer => outerEvents outer ++ (allEvents before ++ [.startTag content])

variable {outer : List (List Char × List Node)} {siblings forest : List Node}
  {events : List Event} {names : List (List Char)}

theorem build?_cons_of_standsAlone {e : Event} (alone : e.standsAlone = true) :
    build? outer siblings (e :: events) = build? outer (siblings ++ [single e]) events := by
  cases e <;> first | rfl | cases alone

/-- A forest that has been built is one of the events that it was built from. -/
theorem events_of_build? (kept : ∀ e ∈ events, e.isKept = true)
    (around : ∀ o ∈ outer, AllProper o.2) (proper : AllProper siblings)
    (built : build? outer siblings events = some forest) :
    AllProper forest ∧ allEvents forest = outerEvents outer ++ (allEvents siblings ++ events) := by
  -- An end tag moves the siblings so far into an element among those one level further out.
  induction events generalizing outer siblings with
  | nil =>
    cases outer with
    | nil =>
      cases built
      exact ⟨proper, by simp [outerEvents]⟩
    | cons o outer => cases built
  | cons e events ih =>
    obtain ⟨e_kept, later_kept⟩ := List.forall_mem_cons.mp kept
    rcases Event.cases_of_isKept e_kept with ⟨content, rfl⟩ | ⟨name, rfl⟩ | alone
    · have inner := ih later_kept (List.forall_mem_cons.mpr ⟨proper, around⟩) allProper_nil built
      simpa [outerEvents, allEvents] using inner
    · match outer with
      | [] => cases built
      | (content, before) :: outer =>
        obtain ⟨before_proper, around⟩ := List.forall_mem_cons.mp around
        have closed : AllProper (before ++ [element content name siblings]) :=
          allProper_append_iff.mpr ⟨before_proper, proper, allProper_nil⟩
        have after := ih later_kept around closed built
        simpa [outerEvents, allEvents_append, allEvents, Node.events] using after
    · rw [build?_cons_of_standsAlone alone] at built
      have added : AllProper (siblings ++ [single e]) :=
        allProper_append_iff.mpr ⟨proper, alone, allProper_nil⟩
      have after := ih later_kept around added built
      simpa [allEvents_append, allEvents, Node.events] using after

/-- Where all tags nest, there is a forest when no element is left open. -/
theorem exists_build?_iff (kept : ∀ e ∈ events, e.isKept = true)
    (nested : nestAll (outer.map fun o => tagName o.1) events = .ok names) :
    (∃ forest, build? outer siblings events = some forest) ↔ names = [] := by
  induction events generalizing outer siblings with
  | nil =>
    cases nested
    cases outer <;> simp [build?]
  | cons e events ih =>
    obtain ⟨e_kept, later_kept⟩ := List.forall_mem_cons.mp kept
    rw [nestAll_cons] at nested
    obtain ⟨inner, here, nested⟩ := bind_eq_ok_iff.mp nested
    rcases Event.cases_of_isKept e_kept with ⟨content, rfl⟩ | ⟨name, rfl⟩ | alone
    · cases here
      exact ih later_kept nested
    · match outer with
      | [] => cases here
      | (content, before) :: outer =>
        cases nest_endTag_eq_ok_iff.mp here
        exact ih later_kept nested
    · rw [Event.nest_of_standsAlone alone] at here
      cases here
      rw [build?_cons_of_standsAlone alone]
      exact ih later_kept nested

theorem exists_ofEvents?_iff (kept : ∀ e ∈ events, e.isKept = true)
    (nested : nestAll [] events = .ok names) :
    (∃ forest, ofEvents? events = some forest) ↔ names = [] :=
  exists_build?_iff kept nested

theorem events_of_ofEvents? (kept : ∀ e ∈ events, e.isKept = true)
    (built : ofEvents? events = some forest) : AllProper forest ∧ allEvents forest = events :=
  events_of_build? kept (by simp) allProper_nil built

theorem exists_events_cons {node : Node} (proper : node.IsProper) :
    ∃ e later, node.events = e :: later ∧ ∀ name, e ≠ .endTag name := by
  cases node with
  | element content name children => exact ⟨_, _, rfl, by simp⟩
  | single e => exact ⟨e, [], rfl, Event.ne_endTag_of_standsAlone proper⟩

theorem print_of_inline {e : Event} (inline : e.isInline = true) (breaks : Bool) (level : Nat) :
    (single e).print breaks level = (e.written, false) := by
  cases e <;> first | rfl | cases inline

theorem print_of_apart {e : Event} (alone : e.standsAlone = true) (apart : e.isInline = false)
    (breaks : Bool) (level : Nat) :
    (single e).print breaks level = (line breaks level e, true) := by
  cases e <;> first | rfl | (cases alone; done) | cases apart

mutual

theorem draw_node {node : Node} (proper : node.IsProper) (level : Nat) (breaks : Bool)
    (more : List Event) :
    draw level breaks (collapse (node.events ++ more)) =
      (node.print breaks level).1 ++ draw level (node.print breaks level).2 (collapse more) := by
  match node with
  | element content name [] =>
    exact draw_tag rfl level breaks (collapse more)
  | element content name (child :: children) =>
    obtain ⟨e, later, first, other⟩ := exists_events_cons proper.1
    have opened : collapse ((element content name (child :: children)).events ++ more) =
        .startTag content :: collapse (allEvents (child :: children) ++ .endTag name :: more) := by
      simp only [events, allEvents, first, List.cons_append, List.append_assoc, List.nil_append]
      exact collapse_startTag content other _
    have closed : collapse (.endTag name :: more) = .endTag name :: collapse more := rfl
    rw [opened, draw_tag rfl, Event.depthAfter, draw_nodes proper (level + 1) true, closed,
      draw_tag rfl]
    simp only [print, printAll, List.append_assoc]
    rfl
  | single e =>
    have alone : e.standsAlone = true := proper
    have left : collapse ((single e).events ++ more) = e :: collapse more :=
      collapse_cons (Event.ne_startTag_of_standsAlone alone) more
    rw [left]
    cases inline : e.isInline with
    | true => rw [draw_inline inline, print_of_inline inline]
    | false =>
      rw [draw_tag inline, Event.level_of_standsAlone alone, Event.depthAfter_of_standsAlone alone,
        print_of_apart alone inline]

theorem draw_nodes {nodes : List Node} (proper : AllProper nodes) (level : Nat) (breaks : Bool)
    (more : List Event) :
    draw level breaks (collapse (allEvents nodes ++ more)) =
      (printAll breaks level nodes).1 ++
        draw level (printAll breaks level nodes).2 (collapse more) := by
  match nodes with
  | [] => rfl
  | node :: nodes =>
    rw [allEvents, List.append_assoc, draw_node proper.1, draw_nodes proper.2, printAll,
      List.append_assoc]

end

mutual

theorem depthAfter_events {node : Node} (proper : node.IsProper) (depth : Nat) :
    node.events.foldl Event.depthAfter depth = depth := by
  cases node with
  | element content name children =>
    have inner : (allEvents children).foldl Event.depthAfter (depth + 1) = depth + 1 :=
      depthAfter_allEvents proper (depth + 1)
    simp only [events, List.foldl_cons, List.foldl_append, List.foldl_nil, Event.depthAfter, inner,
      Nat.add_sub_cancel]
  | single e => exact Event.depthAfter_of_standsAlone proper depth

theorem depthAfter_allEvents {nodes : List Node} (proper : AllProper nodes) (depth : Nat) :
    (allEvents nodes).foldl Event.depthAfter depth = depth := by
  match nodes with
  | [] => rfl
  | node :: nodes =>
    rw [allEvents, List.foldl_append, depthAfter_events proper.1, depthAfter_allEvents proper.2]

end

theorem openAfter_append_events {node : Node} (proper : node.IsProper) (before : List Event) :
    openAfter (before ++ node.events) = openAfter before := by
  rw [openAfter, List.foldl_append, depthAfter_events proper]
  rfl

theorem any_beginsElement_events {node : Node} (proper : node.IsProper) :
    node.events.any Event.beginsElement = node.isElement := by
  cases node with
  | element content name children => rfl
  | single e =>
    have alone : e.standsAlone = true := proper
    cases e <;> first | rfl | cases alone

theorem any_beginsElement_allEvents {nodes : List Node} (proper : AllProper nodes) :
    (allEvents nodes).any Event.beginsElement = nodes.any isElement := by
  induction nodes with
  | nil => rfl
  | cons node nodes ih =>
    rw [allEvents, List.any_append, List.any_cons, any_beginsElement_events proper.1, ih proper.2]

mutual

theorem eventOffence?_events_inside {before : List Event} {node : Node} (proper : node.IsProper)
    (inside : openAfter before ≠ 0) : eventOffence? before node.events = none := by
  cases node with
  | element content name children =>
    have deeper : openAfter (before ++ [.startTag content]) ≠ 0 := by
      rw [openAfter_append_singleton]
      exact Nat.succ_ne_zero _
    have held : eventOffence? (before ++ [.startTag content]) (allEvents children) = none :=
      eventOffence?_allEvents_inside proper deeper
    rw [events, eventOffence?_cons_of_none (Event.offence?_inside inside _), eventOffence?_append,
      held, Option.none_or, eventOffence?_cons_of_none (Event.offence?_of_apart rfl rfl)]
    rfl
  | single e => exact eventOffence?_cons_of_none (Event.offence?_inside inside e) []

theorem eventOffence?_allEvents_inside {before : List Event} {nodes : List Node}
    (proper : AllProper nodes) (inside : openAfter before ≠ 0) :
    eventOffence? before (allEvents nodes) = none := by
  match nodes with
  | [] => rfl
  | node :: nodes =>
    have later : openAfter (before ++ node.events) ≠ 0 := by
      rwa [openAfter_append_events proper.1]
    rw [allEvents, eventOffence?_append, eventOffence?_events_inside proper.1 inside,
      eventOffence?_allEvents_inside proper.2 later]
    rfl

end

variable {before : List Event}

theorem eventOffence?_events_outside_eq_none_iff {node : Node} (proper : node.IsProper)
    (outside : openAfter before = 0) :
    eventOffence? before node.events = none ↔ node.isText = false ∧
      (node.isElement = true → before.any Event.beginsElement = false) := by
  cases node with
  | element content name children =>
    have deeper : openAfter (before ++ [.startTag content]) ≠ 0 := by
      rw [openAfter_append_singleton]
      exact Nat.succ_ne_zero _
    have held : eventOffence? (before ++ [.startTag content]) (allEvents children) = none :=
      eventOffence?_allEvents_inside proper deeper
    have closed : ∀ before, eventOffence? before [.endTag name] = none :=
      fun before => eventOffence?_cons_of_none (Event.offence?_of_apart rfl rfl) []
    rw [events, eventOffence?, eventOffence?_append, held, closed, Option.none_or, Option.or_none,
      Event.offence?_outside_eq_none_iff outside]
    rfl
  | single e =>
    have alone : e.standsAlone = true := proper
    rw [events, eventOffence?, eventOffence?, Option.or_none,
      Event.offence?_outside_eq_none_iff outside]
    cases e <;> first | rfl | cases alone

/-- Outside of all elements there is room for no text, and for one element. -/
theorem eventOffence?_allEvents_outside_eq_none_iff {nodes : List Node} (proper : AllProper nodes)
    (outside : openAfter before = 0) :
    eventOffence? before (allEvents nodes) = none ↔ nodes.any isText = false ∧
      (nodes.filter isElement).length + (before.any Event.beginsElement).toNat ≤ 1 := by
  induction nodes generalizing before with
  | nil => simp [allEvents, eventOffence?, Bool.toNat_le]
  | cons node nodes ih =>
    have later : openAfter (before ++ node.events) = 0 := by
      rwa [openAfter_append_events proper.1]
    rw [allEvents, eventOffence?_append, Option.or_eq_none_iff,
      eventOffence?_events_outside_eq_none_iff proper.1 outside, ih proper.2 later, List.any_append,
      any_beginsElement_events proper.1, List.any_cons, List.filter_cons]
    cases node.isText <;> cases node.isElement <;> cases before.any Event.beginsElement <;> simp

end Node

end TypedConfig.Markup
