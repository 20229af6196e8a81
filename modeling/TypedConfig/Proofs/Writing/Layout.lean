import TypedConfig.Markup.Layout
import TypedConfig.Proofs.Writing.Events

namespace TypedConfig

open Markup

namespace Markup

namespace Event

theorem written_startTag (content : List Char) :
    (startTag content).written = '<' :: (content ++ ['>']) := rfl

theorem written_endTag (name : List Char) :
    (endTag name).written = '<' :: '/' :: (name ++ ['>']) := rfl

theorem written_emptyTag (content : List Char) :
    (emptyTag content).written = '<' :: (content ++ ['/', '>']) := rfl

end Event

namespace Layout

def lineStart (breaks : Bool) (level : Nat) : List Char :=
  if breaks then '\n' :: indent level else []

/-- Between two elements inside `level` others, and after the last element. -/
def between (level : Nat) : Layout := ⟨none, level, true, true⟩

def printAfter (s : Layout) (text : List Char) (events : List Event) :
    Except Diagnostic (List Char × Layout) :=
  (s.print events).map fun (written, s) => (text ++ written, s)

variable {s t : Layout} {text : List Char} {events : List Event}

theorem printAfter_nil : s.printAfter text [] = .ok (text, s) := by
  simp [printAfter, print, Except.map, Pure.pure, Except.pure]

theorem print_eq_printAfter : s.print events = s.printAfter [] events := by
  cases h : s.print events <;> simp [printAfter, h, Except.map]

theorem printAfter_cons {e : Event} {written : List Char} (h : s.step e = .ok (written, t)) :
    s.printAfter text (e :: events) = t.printAfter (text ++ written) events := by
  simp only [printAfter, print, h, Bind.bind, Except.bind]
  cases t.print events <;> simp [Except.map, Pure.pure, Except.pure]

variable {level : Nat} {rooted breaks : Bool} {content : List Char}

theorem admitted_inside (level : Nat) (rooted : Bool) : ¬ (level + 1 = 0 ∧ rooted = true) := by
  simp

theorem step_startTag (admitted : ¬ (level = 0 ∧ rooted = true)) :
    step ⟨none, level, rooted, breaks⟩ (.startTag content) =
      .ok ([], ⟨some content, level + 1, true, breaks⟩) := by
  simp [step, release, admitElement, admitted, Bind.bind, Except.bind, Pure.pure, Except.pure]

theorem release_held :
    release ⟨some content, level + 1, rooted, breaks⟩ =
      (lineStart breaks level ++ Event.written (.startTag content),
        ⟨none, level + 1, rooted, true⟩) := rfl

theorem admitText_inside {s : Layout} (inside : s.depth ≠ 0) : s.admitText = .ok () :=
  if_neg inside

/-- The start tag that is held back comes out as if it had been written at once. -/
theorem step_startTag_held {inner : List Char} :
    step ⟨some content, level + 1, true, breaks⟩ (.startTag inner) =
      .ok (lineStart breaks level ++ Event.written (.startTag content),
        ⟨some inner, level + 2, true, true⟩) := by
  simp [step, release_held, admitElement, Bind.bind, Except.bind, Pure.pure, Except.pure]

theorem step_text_held {inner : List Char} :
    step ⟨some content, level + 1, true, breaks⟩ (.text inner) =
      .ok (lineStart breaks level ++ Event.written (.startTag content) ++ inner,
        ⟨none, level + 1, true, false⟩) := by
  have admitted : admitText ⟨some content, level + 1, true, breaks⟩ = .ok () :=
    admitText_inside (Nat.succ_ne_zero level)
  simp only [step, admitted, release_held, inline, Bind.bind, Except.bind, Pure.pure, Except.pure]
  rfl

theorem step_endTag_held {name : List Char} :
    step ⟨some content, level + 1, true, breaks⟩ (.endTag name) =
      .ok (lineStart breaks level ++ Event.written (.emptyTag content), between level) := rfl

theorem step_endTag {name : List Char} :
    step ⟨none, level + 1, true, breaks⟩ (.endTag name) =
      .ok (lineStart breaks level ++ Event.written (.endTag name), between level) := rfl

/-- Between elements inside `level` others, the events of some elements come out as `children`. -/
structure LaysOut (level : Nat) (inner : List Event) (children : List Char) : Prop where
  nil_or_startTag : inner = [] ∧ children = [] ∨
    (∃ content later, inner = .startTag content :: later) ∧ children ≠ []
  printed : ∀ text more, (between level).printAfter text (inner ++ more) =
    (between level).printAfter (text ++ children) more

theorem laysOut_nil : LaysOut level [] [] := by
  refine ⟨.inl ⟨rfl, rfl⟩, ?_⟩
  intro text more
  simp

variable {name : List Char} {tag : Option Tag} {more : List Event}

theorem printAfter_text (admitted : ¬ (level = 0 ∧ rooted = true)) :
    printAfter ⟨none, level, rooted, breaks⟩ text
        (elementEvents name tag [.text content] ++ more) =
      (between level).printAfter
        (text ++ lineStart breaks level ++ elementMarkup name tag content) more := by
  simp only [elementEvents, List.cons_append, List.nil_append]
  rw [printAfter_cons (step_startTag admitted), printAfter_cons step_text_held,
    printAfter_cons step_endTag]
  simp [elementMarkup, Event.written_startTag, Event.written_endTag, lineStart]

theorem printAfter_container {inner : List Event} {children : List Char}
    (admitted : ¬ (level = 0 ∧ rooted = true)) (inside : LaysOut (level + 1) inner children) :
    printAfter ⟨none, level, rooted, breaks⟩ text (elementEvents name tag inner ++ more) =
      (between level).printAfter
        (text ++ lineStart breaks level ++ containerPicture level name tag children) more := by
  simp only [elementEvents, List.cons_append]
  rw [printAfter_cons (step_startTag admitted)]
  rcases inside.nil_or_startTag with ⟨rfl, rfl⟩ | ⟨⟨first, later, rfl⟩, ne⟩
  · simp only [List.nil_append, List.cons_append]
    rw [printAfter_cons step_endTag_held]
    simp [containerPicture, Event.written_emptyTag]
  · -- The first child lets the start tag out, and is then laid out as if it had been there before.
    have released : printAfter ⟨some (name ++ Tag.attribute tag), level + 1, true, breaks⟩ text
          (.startTag first :: later ++ .endTag name :: more) =
        (between (level + 1)).printAfter
          (text ++
            (lineStart breaks level ++ Event.written (.startTag (name ++ Tag.attribute tag))))
          (.startTag first :: later ++ .endTag name :: more) := by
      rw [List.cons_append, printAfter_cons step_startTag_held, between,
        printAfter_cons (step_startTag (admitted_inside level true)), List.append_nil]
    simp only [List.append_assoc, List.cons_append, List.nil_append, List.append_nil] at released ⊢
    rw [released]
    have printed := inside.printed
    simp only [List.cons_append] at printed
    rw [printed, between, printAfter_cons step_endTag]
    simp [containerPicture, ne, lineStart, Event.written_startTag, Event.written_endTag]

end Layout

end Markup

namespace Value

mutual

theorem printAfter_events {v : Value} (writable : v.Writable) {level : Nat} {rooted breaks : Bool}
    {text name : List Char} {tag : Option Tag} {more : List Event}
    (admitted : ¬ (level = 0 ∧ rooted = true)) :
    Layout.printAfter ⟨none, level, rooted, breaks⟩ text
        (elementEvents name tag v.bodyEvents ++ more) =
      (Layout.between level).printAfter
        (text ++ Layout.lineStart breaks level ++ v.picture level name tag) more := by
  cases v with
  | int n => exact Layout.printAfter_text admitted
  | array items => exact Layout.printAfter_container admitted (itemsLayOut writable level)
  | dict pairs => exact Layout.printAfter_container admitted (pairsLayOut writable level)
  | ref r => cases writable

theorem itemsLayOut {items : List Value} (writable : ItemsWritable items) (level : Nat) :
    Layout.LaysOut (level + 1) (itemsEvents items) (itemsPicture (level + 1) items) := by
  cases items with
  | nil => exact Layout.laysOut_nil
  | cons item items =>
    refine ⟨.inr ⟨⟨_, _, rfl⟩, by simp [itemsPicture]⟩, ?_⟩
    intro text more
    have admitted := Layout.admitted_inside level true
    rw [itemsEvents, List.append_assoc, Layout.between, printAfter_events writable.1 admitted,
      (itemsLayOut writable.2 level).printed]
    simp [itemsPicture, Layout.between, Layout.lineStart]

theorem pairsLayOut {pairs : List (String × Value)} (writable : PairsWritable pairs) (level : Nat) :
    Layout.LaysOut (level + 1) (pairsEvents pairs) (pairsPicture (level + 1) pairs) := by
  match pairs with
  | [] => exact Layout.laysOut_nil
  | (key, value) :: pairs =>
    refine ⟨.inr ⟨⟨_, _, rfl⟩, by simp [pairsPicture]⟩, ?_⟩
    intro text more
    have admitted := Layout.admitted_inside level true
    rw [pairsEvents, List.append_assoc, Layout.between, printAfter_events writable.2.1 admitted,
      (pairsLayOut writable.2.2 level).printed]
    simp [pairsPicture, Layout.between, Layout.lineStart]

end

end Value

namespace Entry

variable {e : Entry}

theorem print_events (writable : e.Writable) :
    Layout.start.print (elementEvents e.name.toList none e.value.bodyEvents) =
      .ok (e.picture, Layout.between 0) := by
  have admitted : ¬ (0 = 0 ∧ false = true) := by simp
  calc Layout.start.print (elementEvents e.name.toList none e.value.bodyEvents)
    _ = Layout.start.printAfter [] (elementEvents e.name.toList none e.value.bodyEvents ++ []) := by
      rw [List.append_nil, Layout.print_eq_printAfter]
    _ = (Layout.between 0).printAfter ([] ++ Layout.lineStart false 0 ++ e.picture) [] :=
      Value.printAfter_events writable.2 admitted
    _ = .ok (e.picture, Layout.between 0) := Layout.printAfter_nil

theorem reindent_markup (writable : e.Writable) :
    Markup.reindent (String.ofList (elementMarkup e.name.toList none e.value.body)) =
      .ok (String.ofList (declarationLine ++ e.picture ++ ['\n'])) := by
  have finished : (Layout.between 0).finish = .ok () := rfl
  simp only [reindent, reindentText, String.toList_ofList, ofText_markup writable,
    print_events writable, finished, Bind.bind, Except.bind, Pure.pure, Except.pure, Except.map]

end Entry

/-- Laying out the markup of an entry draws its picture, whatever the shape of its value. -/
theorem reindent_draws_picture {e : Entry} {xml : String} (h : e.markup = .ok xml) :
    Markup.reindent xml = .ok (String.ofList (declarationLine ++ e.picture ++ ['\n'])) := by
  obtain ⟨writable, rfl⟩ := Entry.markup_eq_ok_iff.mp h
  exact Entry.reindent_markup writable

theorem reindent_draws_picture_nested :
    (Entry.mk "a" (.dict [("b", .array [.int (-1)]), ("c", .dict [])])).markup = .ok
      "<a><b type=\"array\"><element type=\"int\">-1</element></b><c type=\"dict\"></c></a>" ∧
    Markup.reindent
      "<a><b type=\"array\"><element type=\"int\">-1</element></b><c type=\"dict\"></c></a>" =
      .ok ("<?xml version=\"1.0\" ?>\n<a>\n\t<b type=\"array\">\n" ++
        "\t\t<element type=\"int\">-1</element>\n\t</b>\n\t<c type=\"dict\"/>\n</a>\n") := by
  have written : (Entry.mk "a" (.dict [("b", .array [.int (-1)]), ("c", .dict [])])).markup = .ok
      "<a><b type=\"array\"><element type=\"int\">-1</element></b><c type=\"dict\"></c></a>" := by
    apply Entry.markup_eq_ok_iff.mpr
    refine ⟨⟨by decide, by decide, ⟨True.intro, True.intro⟩, by decide, True.intro, True.intro⟩, ?_⟩
    decide +kernel
  refine ⟨written, ?_⟩
  rw [reindent_draws_picture written]
  exact congrArg Except.ok (by decide +kernel)

end TypedConfig
