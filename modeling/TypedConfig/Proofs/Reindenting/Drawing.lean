import Mathlib.Data.List.Basic
import TypedConfig.Proofs.Reindenting.Offences

namespace TypedConfig.Markup

namespace Layout

variable {s : Layout}

def pending (s : Layout) : List Event :=
  match s.held with
  | none => []
  | some content => [.startTag content]

def level (s : Layout) : Nat := s.depth - s.pending.length

end Layout

def Event.level (depth : Nat) : Event → Nat
  | endTag _ => depth - 1
  | _ => depth

theorem Event.level_of_standsAlone {e : Event} (alone : e.standsAlone = true) (depth : Nat) :
    e.level depth = depth := by
  cases e <;> first | rfl | cases alone

/-- What some events come to on paper, when nothing is held back. -/
def draw (depth : Nat) (breaks : Bool) : List Event → List Char
  | [] => []
  | e :: events =>
    Layout.lineStart (breaks && !e.isInline) (e.level depth) ++ e.written ++
      draw (e.depthAfter depth) (!e.isInline) events

theorem draw_cons (depth : Nat) (breaks : Bool) (e : Event) (events : List Event) :
    draw depth breaks (e :: events) =
      Layout.lineStart (breaks && !e.isInline) (e.level depth) ++ e.written ++
        draw (e.depthAfter depth) (!e.isInline) events := rfl

theorem draw_tag {e : Event} (apart : e.isInline = false) (depth : Nat) (breaks : Bool)
    (events : List Event) :
    draw depth breaks (e :: events) =
      Node.line breaks (e.level depth) e ++ draw (e.depthAfter depth) true events := by
  rw [draw_cons, apart, Bool.not_false, Bool.and_true]
  rfl

theorem draw_inline {e : Event} (inline : e.isInline = true) (depth : Nat) (breaks : Bool)
    (events : List Event) :
    draw depth breaks (e :: events) = e.written ++ draw depth false events := by
  have alone := Event.standsAlone_of_isInline inline
  rw [draw_cons, inline, Bool.not_true, Bool.and_false, Event.depthAfter_of_standsAlone alone]
  rfl

theorem draw_text (depth : Nat) (breaks : Bool) (content : List Char) (events : List Event) :
    draw depth breaks (.text content :: events) = content ++ draw depth false events :=
  draw_inline rfl depth breaks events

theorem collapse_cons {e : Event} (other : ∀ content, e ≠ .startTag content)
    (events : List Event) : collapse (e :: events) = e :: collapse events := by
  cases e <;> first | rfl | exact absurd rfl (other _)

theorem collapse_startTag {e : Event} (content : List Char) (other : ∀ name, e ≠ .endTag name)
    (events : List Event) :
    collapse (.startTag content :: e :: events) = .startTag content :: collapse (e :: events) := by
  cases e <;> first | rfl | exact absurd rfl (other _)

namespace Layout

variable {s t : Layout} {e : Event} {events before : List Event} {text body : List Char}

theorem collapse_pending (s : Layout) (other : ∀ name, e ≠ .endTag name) (events : List Event) :
    Markup.collapse (s.pending ++ e :: events) = s.pending ++ Markup.collapse (e :: events) := by
  unfold pending
  split
  · rfl
  · exact collapse_startTag _ other events

theorem draw_pending (h : s.Follows before) (events : List Event) :
    draw s.level s.breaks (s.pending ++ events) =
      s.release.1 ++ draw s.depth s.release.2.breaks events := by
  cases held : s.held with
  | none =>
    rw [release_of_free held]
    simp [level, pending, held]
  | some content =>
    have inside : s.depth ≠ 0 := h.inside (by simp [held])
    have around : s.depth - 1 + 1 = s.depth := Nat.sub_one_add_one inside
    rw [release_of_held held]
    simp [level, pending, held, draw, Event.level, Event.depthAfter, Event.isInline, around]

/-- What is written is what the collapsed events come to, those still held back included. -/
theorem draw_of_print (h : s.Follows before) (kept : ∀ e ∈ events, e.isKept = true)
    (printed : s.print events = .ok (body, t)) (free : t.held = none) :
    body = draw s.level s.breaks (Markup.collapse (s.pending ++ events)) := by
  -- A start tag that is held back counts as an event to come, with the level it was found at.
  induction events generalizing s before body with
  | nil =>
    cases printed
    simp [pending, free, Markup.collapse, draw]
  | cons e events ih =>
    obtain ⟨⟨first, next⟩, stepped, printed⟩ := bind_eq_ok_iff.mp printed
    obtain ⟨⟨rest, last⟩, rest_printed, printed⟩ := bind_eq_ok_iff.mp printed
    cases printed
    obtain ⟨e_kept, kept⟩ := List.forall_mem_cons.mp kept
    have drawn := ih (h.step stepped) kept rest_printed
    rw [drawn]
    cases step_ok h stepped with
    | hold content =>
      rw [collapse_pending s (by simp), draw_pending h]
      rfl
    | close name empty =>
      simp [level, pending, empty, Markup.collapse, draw, Event.level, Event.depthAfter,
        Event.isInline]
    | collapse name held =>
      simp [level, pending, held, Markup.collapse, draw, Event.level, Event.depthAfter,
        Event.isInline]
    | stand alone =>
      rw [collapse_pending s (Event.ne_endTag_of_standsAlone alone),
        collapse_cons (Event.ne_startTag_of_standsAlone alone), draw_pending h, draw,
        Event.level_of_standsAlone alone, Event.depthAfter_of_standsAlone alone]
      simp [level, pending]
    | pass dropped =>
      rw [e_kept] at dropped
      cases dropped

end Layout

theorem draw_consText (depth : Nat) (breaks : Bool) (first : List Char) (events : List Event) :
    draw depth breaks (consText first events) = draw depth breaks (.text first :: events) := by
  unfold consText
  split
  · rw [draw_text, draw_text, draw_text, List.append_assoc]
  · rfl

theorem draw_joinTexts (depth : Nat) (breaks : Bool) (events : List Event) :
    draw depth breaks (joinTexts events) = draw depth breaks events := by
  fun_induction joinTexts events generalizing depth breaks with
  | case1 first events ih => rw [draw_consText, draw_cons, draw_cons, ih]
  | case2 e events _ ih => rw [draw_cons, draw_cons, ih]
  | case3 => rfl

variable {text laid : List Char}

theorem failure?_reindentText (text : List Char) :
    failure? (reindentText text) = textOffence? text := by
  simp only [reindentText, textOffence?]
  rw [← Layout.failure?_print Layout.follows_start]
  apply failure?_bind
  intro (body, s) printed
  have ended := Layout.follows_start.print printed
  cases (EventScan.ofText text).fault with
  | some fault => rfl
  | none => exact (failure?_bind_pure _ _).trans (Layout.failure?_finish ended)

theorem Layout.held_of_finish {s : Layout} {before : List Event} (h : s.Follows before)
    (finished : s.finish = .ok ()) : s.held = none := by
  have closed : s.depth = 0 := by
    apply Decidable.byContradiction
    intro inside
    rw [finish, if_pos inside] at finished
    cases finished
  cases held : s.held with
  | none => rfl
  | some content => exact absurd closed (h.inside (by simp [held]))

theorem reindentText_ok (h : reindentText text = .ok laid) :
    laid = declarationLine ++ draw 0 false (normal (EventScan.ofText text).events) ++ ['\n'] := by
  obtain ⟨⟨body, s⟩, printed, h⟩ := bind_eq_ok_iff.mp h
  cases fault : (EventScan.ofText text).fault with
  | some fault' =>
    rw [fault] at h
    cases h
  | none =>
    rw [fault] at h
    obtain ⟨_, finished, h⟩ := bind_eq_ok_iff.mp h
    cases h
    have free := Layout.held_of_finish (Layout.follows_start.print printed) finished
    rw [← Layout.print_filter_isKept] at printed
    have kept : ∀ e ∈ (EventScan.ofText text).events.filter Event.isKept, e.isKept = true :=
      fun _ => List.of_mem_filter
    have drawn := Layout.draw_of_print Layout.follows_start kept printed free
    rw [drawn, normal, draw_joinTexts]
    rfl

end TypedConfig.Markup
