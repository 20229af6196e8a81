import TypedConfig.Proofs.Writing.Body
import TypedConfig.Proofs.Writing.Tags

namespace TypedConfig

open Markup

def elementEvents (name : List Char) (tag : Option Tag) (inner : List Event) : List Event :=
  .startTag (name ++ Tag.attribute tag) :: (inner ++ [.endTag name])

namespace Value

mutual

def bodyEvents : Value → List Event
  | int n => [.text (toString n.toInt).toList]
  | array items => itemsEvents items
  | dict pairs => pairsEvents pairs
  | ref _ => []

def itemsEvents : List Value → List Event
  | [] => []
  | item :: items => elementEvents itemName item.tag? item.bodyEvents ++ itemsEvents items

def pairsEvents : List (String × Value) → List Event
  | [] => []
  | (key, value) :: pairs =>
    elementEvents key.toList value.tag? value.bodyEvents ++ pairsEvents pairs

end

end Value

namespace Markup

def EventScan.prepend (events : List Event) (s : EventScan) : EventScan :=
  ⟨events ++ s.events, s.fault⟩

namespace EventScan

variable (s : EventScan)

@[simp]
theorem prepend_nil : s.prepend [] = s := rfl

@[simp]
theorem prepend_cons (e : Event) (events : List Event) :
    s.prepend (e :: events) = (s.prepend events).cons e := rfl

@[simp]
theorem prepend_append (first later : List Event) :
    s.prepend (first ++ later) = (s.prepend later).prepend first := by
  simp [prepend]

end EventScan

namespace Reader

variable {names : List (List Char)} {rest : List Char}

theorem piece?_construct (rest : List Char) (names : List (List Char)) :
    (Reader.mk ('<' :: rest) names).piece? = some (Piece.construct rest) := rfl

theorem piece?_text {c : Char} (other : c ≠ '<') (visible : isBlank c = false) :
    (Reader.mk (c :: rest) names).piece? = some (Piece.text (c :: rest)) := by
  have kept : (c :: rest).dropWhile isBlank = c :: rest := by simp [visible]
  unfold piece?
  rw [kept]
  split
  · rename_i eq
    cases eq
  · rename_i eq
    cases eq
    exact absurd rfl other
  · rename_i eq
    cases eq
    rfl

theorem scan_of_piece {r : Reader} {piece : Piece} {event : Event} (found : r.piece? = some piece)
    (reading : piece.reading = .ok event) (nests : event.nest r.names = .ok names) :
    r.scan = (Reader.mk piece.rest names).scan.cons event := by
  have next : r.next = some (.ok (event, ⟨piece.rest, names⟩)) := by
    simp [Reader.next, found, reading, nests]
  rw [Reader.scan]
  split
  · simp_all
  · simp_all
  · rename_i h
    rw [next] at h
    cases h
    rfl

theorem scan_startTag {name : List Char} (word : Text.isWord name = true) (tag : Option Tag) :
    (Reader.mk ('<' :: (name ++ Tag.attribute tag ++ '>' :: rest)) names).scan =
      (Reader.mk rest (name :: names)).scan.cons (.startTag (name ++ Tag.attribute tag)) := by
  have found := piece?_construct (name ++ Tag.attribute tag ++ '>' :: rest) names
  rw [Piece.construct_startTag word] at found
  have nests : Event.nest names (.startTag (name ++ Tag.attribute tag)) = .ok (name :: names) := by
    rw [Event.nest, (isPlain_of_isWord word).tagName_append]
  exact scan_of_piece found rfl nests

theorem scan_endTag {name : List Char} (plain : IsPlain name) :
    (Reader.mk ('<' :: '/' :: (name ++ '>' :: rest)) (name :: names)).scan =
      (Reader.mk rest names).scan.cons (.endTag name) := by
  have found := piece?_construct ('/' :: (name ++ '>' :: rest)) (name :: names)
  rw [Piece.construct_endTag plain] at found
  have nests : Event.nest (name :: names) (.endTag name) = .ok names := by simp [Event.nest]
  exact scan_of_piece found rfl nests

theorem scan_text {content : List Char} (plain : IsPlain content) (ne : content ≠ []) :
    (Reader.mk (content ++ '<' :: rest) names).scan =
      (Reader.mk ('<' :: rest) names).scan.cons (.text content) := by
  have found : (Reader.mk (content ++ '<' :: rest) names).piece? =
      some (Piece.text (content ++ '<' :: rest)) := by
    cases content with
    | nil => exact absurd rfl ne
    | cons c content =>
      apply piece?_text
      · intro eq
        exact plain c List.mem_cons_self (eq ▸ by decide)
      · exact plain.not_blank c List.mem_cons_self
  rw [Piece.text_append plain] at found
  exact scan_of_piece found rfl rfl

/-- The text reads as the events, whatever tag comes after it and whatever is open around it. -/
def ReadsAs (text : List Char) (events : List Event) : Prop :=
  ∀ rest names, (Reader.mk (text ++ '<' :: rest) names).scan =
    (Reader.mk ('<' :: rest) names).scan.prepend events

theorem scan_element {name inner : List Char} {events : List Event}
    (word : Text.isWord name = true) (tag : Option Tag) (reads : ReadsAs inner events) :
    (Reader.mk (elementMarkup name tag inner ++ rest) names).scan =
      (Reader.mk rest names).scan.prepend (elementEvents name tag events) := by
  have written : elementMarkup name tag inner ++ rest = '<' :: (name ++ Tag.attribute tag ++
      '>' :: (inner ++ '<' :: '/' :: (name ++ '>' :: rest))) := by
    simp [elementMarkup]
  rw [written, scan_startTag word, reads, scan_endTag (isPlain_of_isWord word)]
  simp [elementEvents]

mutual

theorem readsAs_body {v : Value} (writable : v.Writable) : ReadsAs v.body v.bodyEvents := by
  cases v with
  | int n =>
    intro rest names
    exact scan_text (isPlain_number n.toInt) (number_ne_nil n.toInt)
  | array items => exact readsAs_itemsBody writable
  | dict pairs => exact readsAs_pairsBody writable
  | ref r => cases writable

theorem readsAs_itemsBody {items : List Value} (writable : Value.ItemsWritable items) :
    ReadsAs (Value.itemsBody items) (Value.itemsEvents items) := by
  intro rest names
  cases items with
  | nil => rfl
  | cons item items =>
    have first := readsAs_body writable.1
    have later := readsAs_itemsBody writable.2
    have word : Text.isWord itemName = true := by decide
    rw [Value.itemsBody, Value.itemsEvents, List.append_assoc, scan_element word _ first, later]
    simp

theorem readsAs_pairsBody {pairs : List (String × Value)} (writable : Value.PairsWritable pairs) :
    ReadsAs (Value.pairsBody pairs) (Value.pairsEvents pairs) := by
  intro rest names
  match pairs with
  | [] => rfl
  | (key, value) :: pairs =>
    obtain ⟨word, value_writable, pairs_writable⟩ := writable
    have first := readsAs_body value_writable
    have later := readsAs_pairsBody pairs_writable
    rw [Value.pairsBody, Value.pairsEvents, List.append_assoc, scan_element word _ first, later]
    simp

end

end Reader

theorem ofText_markup {e : Entry} (writable : e.Writable) :
    EventScan.ofText (elementMarkup e.name.toList none e.value.body) =
      ⟨elementEvents e.name.toList none e.value.bodyEvents, none⟩ := by
  have reads := Reader.readsAs_body writable.2
  have unmarked : EventScan.ofText (elementMarkup e.name.toList none e.value.body) =
      (Reader.mk (elementMarkup e.name.toList none e.value.body ++ []) []).scan := by
    rw [List.append_nil]
    rfl
  have done : (Reader.mk [] []).scan = ⟨[], none⟩ := by
    rw [Reader.scan]
    rfl
  rw [unmarked, Reader.scan_element writable.1 none reads, done]
  simp [EventScan.prepend]

end Markup

end TypedConfig
