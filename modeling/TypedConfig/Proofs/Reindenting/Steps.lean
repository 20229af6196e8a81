import TypedConfig.Markup.Forest
import TypedConfig.Proofs.Writing.Layout

namespace TypedConfig.Markup

def Event.isRemark : Event → Bool
  | comment _ | instruction _ => true
  | _ => false

def Event.standsAlone : Event → Bool
  | startTag _ | endTag _ | declaration _ | doctype _ => false
  | _ => true

namespace Event

variable {e : Event}

theorem standsAlone_of_isInline (inline : e.isInline = true) : e.standsAlone = true := by
  cases e <;> first | rfl | cases inline

theorem beginsElement_of_isInline (inline : e.isInline = true) : e.beginsElement = false := by
  cases e <;> first | rfl | cases inline

theorem isInline_of_beginsElement (begins : e.beginsElement = true) : e.isInline = false := by
  cases e <;> first | rfl | cases begins

theorem standsAlone_of_isRemark (remark : e.isRemark = true) : e.standsAlone = true := by
  cases e <;> first | rfl | cases remark

theorem isInline_of_isRemark (remark : e.isRemark = true) : e.isInline = false := by
  cases e <;> first | rfl | cases remark

theorem beginsElement_of_isRemark (remark : e.isRemark = true) : e.beginsElement = false := by
  cases e <;> first | rfl | cases remark

theorem depthAfter_of_standsAlone (alone : e.standsAlone = true) (depth : Nat) :
    e.depthAfter depth = depth := by
  cases e <;> first | rfl | cases alone

theorem cases_of_isKept (kept : e.isKept = true) :
    (∃ content, e = startTag content) ∨ (∃ name, e = endTag name) ∨ e.standsAlone = true := by
  cases e with
  | startTag content => exact .inl ⟨content, rfl⟩
  | endTag name => exact .inr (.inl ⟨name, rfl⟩)
  | declaration content => cases kept
  | doctype content => cases kept
  | _ => exact .inr (.inr rfl)

theorem nest_of_standsAlone (alone : e.standsAlone = true) (names : List (List Char)) :
    e.nest names = .ok names := by
  cases e <;> first | rfl | cases alone

theorem ne_startTag_of_standsAlone (alone : e.standsAlone = true) (content : List Char) :
    e ≠ startTag content := by
  rintro rfl
  cases alone

theorem ne_endTag_of_standsAlone (alone : e.standsAlone = true) (name : List Char) :
    e ≠ endTag name := by
  rintro rfl
  cases alone

theorem depthAfter_of_not_isKept (dropped : e.isKept = false) (depth : Nat) :
    e.depthAfter depth = depth := by
  cases e <;> first | rfl | cases dropped

theorem beginsElement_of_not_isKept (dropped : e.isKept = false) : e.beginsElement = false := by
  cases e <;> first | rfl | cases dropped

end Event

namespace Layout

variable {s t : Layout} {e : Event} {events before : List Event} {text body : List Char}

theorem print_cons_of_step {written : List Char} (h : s.step e = .ok (written, t)) :
    s.print (e :: events) = t.printAfter written events := by
  rw [print_eq_printAfter, printAfter_cons h, List.nil_append]

theorem print_cons_of_error {d : Diagnostic} (h : s.step e = .error d) :
    s.print (e :: events) = .error d := by
  simp only [print, h, Bind.bind, Except.bind]

theorem print_cons_congr {later : List Event} (h : ∀ t : Layout, t.print events = t.print later) :
    s.print (e :: events) = s.print (e :: later) := by
  simp only [print, h]

theorem step_of_not_kept (h : e.isKept = false) : s.step e = .ok ([], s) := by
  cases e <;> first | rfl | cases h

theorem print_filter_isKept (s : Layout) (events : List Event) :
    s.print (events.filter Event.isKept) = s.print events := by
  induction events generalizing s with
  | nil => rfl
  | cons e events ih =>
    cases kept : e.isKept with
    | true => rw [List.filter_cons_of_pos kept]; exact print_cons_congr ih
    | false =>
      rw [List.filter_cons_of_neg (by simp [kept]), ih,
        print_cons_of_step (step_of_not_kept kept), print_eq_printAfter]

theorem release_of_free (free : s.held = none) : s.release = ([], s) := by
  simp [release, free]

theorem release_of_held {content : List Char} (held : s.held = some content) :
    s.release = (lineStart s.breaks (s.depth - 1) ++ Event.written (.startTag content),
      { s with held := none, breaks := true }) := by
  simp [release, held, tag, lineStart, indent]

theorem release_eq (s : Layout) :
    s.release = (s.release.1, ⟨none, s.depth, s.rooted, s.release.2.breaks⟩) := by
  cases held : s.held with
  | none => rw [release_of_free held, ← held]
  | some content => rw [release_of_held held]

theorem admitElement_release (s : Layout) :
    s.release.2.admitElement =
      if s.depth = 0 ∧ s.rooted = true then .error (notOneElement "More than one root element")
      else .ok ⟨none, s.depth, true, s.release.2.breaks⟩ := by
  rw [release_eq]
  rfl

theorem step_begins_startTag (s : Layout) (content : List Char) :
    s.step (.startTag content) =
      if s.depth = 0 ∧ s.rooted = true then .error (notOneElement "More than one root element")
      else .ok (s.release.1, ⟨some content, s.depth + 1, true, s.release.2.breaks⟩) := by
  have stepped : s.step (.startTag content) = s.release.2.admitElement.bind fun t =>
      .ok (s.release.1, { t with held := some content, depth := t.depth + 1 }) := rfl
  rw [stepped, admitElement_release]
  split <;> rfl

theorem step_emptyTag (s : Layout) (content : List Char) :
    s.step (.emptyTag content) =
      if s.depth = 0 ∧ s.rooted = true then .error (notOneElement "More than one root element")
      else .ok (s.release.1 ++
          (lineStart s.release.2.breaks s.depth ++ Event.written (.emptyTag content)),
        ⟨none, s.depth, true, true⟩) := by
  have stepped : s.step (.emptyTag content) = s.release.2.admitElement.bind fun t =>
      .ok (s.release.1 ++ (lineStart t.breaks t.depth ++ Event.written (.emptyTag content)),
        { t with breaks := true }) := rfl
  rw [stepped, admitElement_release]
  split <;> rfl

theorem step_inline (s : Layout) (inline : e.isInline = true) :
    s.step e =
      if s.depth = 0 then .error (notOneElement "Text outside of the root element")
      else .ok (s.release.1 ++ e.written, ⟨none, s.depth, s.rooted, false⟩) := by
  have stepped : s.step e = s.admitText.bind fun _ =>
      .ok (s.release.1 ++ e.written, { s.release.2 with breaks := false }) := by
    cases e <;> first | rfl | cases inline
  rw [stepped, release_eq, admitText]
  by_cases outside : s.depth = 0
  · rw [if_pos outside, if_pos outside]
    rfl
  · rw [if_neg outside, if_neg outside]
    rfl

theorem step_endTag_of_free (name : List Char) (free : s.held = none) :
    s.step (.endTag name) = .ok (lineStart s.breaks (s.depth - 1) ++ Event.written (.endTag name),
      ⟨none, s.depth - 1, s.rooted, true⟩) := by
  simp [step, free, tag, lineStart, indent, Pure.pure, Except.pure]

theorem step_endTag_of_held (name : List Char) {content : List Char}
    (held : s.held = some content) :
    s.step (.endTag name) =
      .ok (lineStart s.breaks (s.depth - 1) ++ Event.written (.emptyTag content),
        ⟨none, s.depth - 1, s.rooted, true⟩) := by
  simp [step, held, tag, lineStart, indent, Pure.pure, Except.pure]

theorem step_remark (s : Layout) (remark : e.isRemark = true) :
    s.step e = .ok (s.release.1 ++ (lineStart s.release.2.breaks s.depth ++ e.written),
      ⟨none, s.depth, s.rooted, true⟩) := by
  have stepped : s.step e = .ok
      (s.release.1 ++ (lineStart s.release.2.breaks s.release.2.depth ++ e.written),
        { s.release.2 with breaks := true }) := by
    cases e <;> first | rfl | cases remark
  rw [stepped, release_eq]

theorem print_startTag_endTag (s : Layout) (content name : List Char) (events : List Event) :
    s.print (.startTag content :: .endTag name :: events) =
      s.print (.emptyTag content :: events) := by
  by_cases second : s.depth = 0 ∧ s.rooted = true
  · have held := step_begins_startTag s content
    have closed := step_emptyTag s content
    rw [if_pos second] at held closed
    rw [print_cons_of_error held, print_cons_of_error closed]
  · have held := step_begins_startTag s content
    have closed := step_emptyTag s content
    rw [if_neg second] at held closed
    rw [print_cons_of_step held, print_cons_of_step closed,
      printAfter_cons (step_endTag_of_held name rfl)]
    rfl

theorem print_collapse (s : Layout) (events : List Event) :
    s.print (collapse events) = s.print events := by
  fun_induction collapse events generalizing s with
  | case1 content name events ih =>
    rw [print_startTag_endTag]
    exact print_cons_congr ih
  | case2 e events _ ih => exact print_cons_congr ih
  | case3 => rfl

theorem print_text_text (s : Layout) (first second : List Char) (events : List Event) :
    s.print (.text first :: .text second :: events) =
      s.print (.text (first ++ second) :: events) := by
  have apart := step_inline s (e := .text first) rfl
  have joined := step_inline s (e := .text (first ++ second)) rfl
  by_cases outside : s.depth = 0
  · rw [if_pos outside] at apart joined
    rw [print_cons_of_error apart, print_cons_of_error joined]
  · have next := step_inline ⟨none, s.depth, s.rooted, false⟩ (e := .text second) rfl
    rw [if_neg outside] at apart joined next
    have free : release ⟨none, s.depth, s.rooted, false⟩ = ([], _) := release_of_free rfl
    rw [print_cons_of_step apart, print_cons_of_step joined, printAfter_cons next, free,
      List.nil_append, List.append_assoc]
    rfl

theorem print_consText (s : Layout) (first : List Char) (events : List Event) :
    s.print (consText first events) = s.print (.text first :: events) := by
  unfold consText
  split
  · exact (print_text_text s _ _ _).symm
  · rfl

theorem print_joinTexts (s : Layout) (events : List Event) :
    s.print (joinTexts events) = s.print events := by
  fun_induction joinTexts events generalizing s with
  | case1 first events ih =>
    rw [print_consText]
    exact print_cons_congr ih
  | case2 e events _ ih => exact print_cons_congr ih
  | case3 => rfl

/-- Laying out what is read back from a laid out text comes to the same. -/
theorem print_normal (s : Layout) (events : List Event) :
    s.print (normal events) = s.print events := by
  rw [normal, print_joinTexts, print_collapse, print_filter_isKept]

end Layout

end TypedConfig.Markup
