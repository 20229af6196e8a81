import Mathlib.Data.List.Chain
import TypedConfig.Proofs.Reindenting.Constructs
import TypedConfig.Proofs.Reindenting.Nesting

namespace TypedConfig.Markup

variable {events : List Event} {e : Event} {content text : List Char}

/-- Can the event be written and read again? A bare empty tag is read as an end tag. -/
def Event.Legible : Event → Prop
  | .text content => IsRun content
  | e => e.ReadAs e.asRead

namespace Event

theorem ne_bare_of_readAs (again : e.ReadAs e) : e ≠ emptyTag [] := by
  rintro rfl
  obtain ⟨inner, written, read⟩ := again
  cases written
  cases read []

theorem Scanned.legible (scanned : e.Scanned) : e.Legible := by
  cases e with
  | text content => exact scanned
  | startTag content => exact readAs_startTag scanned.1 scanned.2
  | emptyTag content =>
    have same := asRead_of_ne (ne_bare_of_readAs scanned)
    rw [Legible, same]
    · exact scanned
    · simp
  | _ => exact scanned

theorem Legible.readAs_asRead (legible : e.Legible) (other : ∀ content, e ≠ .text content) :
    e.ReadAs e.asRead := by
  cases e with
  | text content => exact absurd rfl (other content)
  | _ => exact legible

end Event

theorem legible_collapse (scanned : ∀ e ∈ events, e.Scanned) :
    ∀ e ∈ collapse events, e.Legible := by
  fun_induction collapse events with
  | case1 content name events ih =>
    obtain ⟨opens, later⟩ := List.forall_mem_cons.mp scanned
    refine List.forall_mem_cons.mpr ⟨readAs_emptyTag_asRead opens.1, ?_⟩
    exact ih (List.forall_mem_cons.mp later).2
  | case2 e events _ ih =>
    obtain ⟨here, later⟩ := List.forall_mem_cons.mp scanned
    exact List.forall_mem_cons.mpr ⟨here.legible, ih later⟩
  | case3 => simp

theorem legible_consText (run : IsRun content) (legible : ∀ e ∈ events, e.Legible) :
    ∀ e ∈ consText content events, e.Legible := by
  unfold consText
  split
  · obtain ⟨second, later⟩ := List.forall_mem_cons.mp legible
    exact List.forall_mem_cons.mpr ⟨run.append second, later⟩
  · exact List.forall_mem_cons.mpr ⟨run, legible⟩

theorem legible_joinTexts (legible : ∀ e ∈ events, e.Legible) :
    ∀ e ∈ joinTexts events, e.Legible := by
  fun_induction joinTexts events with
  | case1 first events ih =>
    obtain ⟨run, later⟩ := List.forall_mem_cons.mp legible
    exact legible_consText run (ih later)
  | case2 e events _ ih =>
    obtain ⟨here, later⟩ := List.forall_mem_cons.mp legible
    exact List.forall_mem_cons.mpr ⟨here, ih later⟩
  | case3 => simp

theorem scanned_of_mem_ofText (member : e ∈ (EventScan.ofText text).events)
    (kept : e.isKept = true) : e.Scanned :=
  Reader.forall_mem_scan (fun _ _ _ next => Reader.scanned_of_next next) _ e member kept

theorem legible_normal (text : List Char) :
    ∀ e ∈ normal (EventScan.ofText text).events, e.Legible := by
  apply legible_joinTexts
  apply legible_collapse
  intro e member
  obtain ⟨found, kept⟩ := List.mem_filter.mp member
  exact scanned_of_mem_ofText found kept

def Event.Apart (e next : Event) : Prop :=
  ∀ first second, e = .text first → next ≠ .text second

theorem isChain_consText (apart : events.IsChain Event.Apart) :
    (consText content events).IsChain Event.Apart := by
  unfold consText
  split
  · rename_i second later
    obtain ⟨next, later_apart⟩ := List.isChain_cons.mp apart
    refine List.isChain_cons.mpr ⟨?_, later_apart⟩
    intro e first _ _ _
    exact next e first second _ rfl
  · rename_i other
    refine List.isChain_cons.mpr ⟨?_, apart⟩
    rintro e first _ second - rfl
    obtain ⟨later, rfl⟩ := List.head?_eq_some_iff.mp first
    exact other second later rfl

theorem isChain_joinTexts (events : List Event) : (joinTexts events).IsChain Event.Apart := by
  fun_induction joinTexts events with
  | case1 first events ih => exact isChain_consText ih
  | case2 e events other ih =>
    refine List.isChain_cons.mpr ⟨?_, ih⟩
    rintro next - first _ rfl
    exact absurd rfl (other first)
  | case3 => exact .nil

end TypedConfig.Markup
