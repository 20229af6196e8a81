import TypedConfig.Entry.Markup
import TypedConfig.Proofs.Except

namespace TypedConfig

namespace Value

mutual

def Writable : Value → Prop
  | int _ => True
  | array items => ItemsWritable items
  | dict pairs => PairsWritable pairs
  | ref _ => False

def ItemsWritable : List Value → Prop
  | [] => True
  | item :: items => item.Writable ∧ ItemsWritable items

def PairsWritable : List (String × Value) → Prop
  | [] => True
  | (key, value) :: pairs =>
    Text.isWord key.toList = true ∧ value.Writable ∧ PairsWritable pairs

end

mutual

def body : Value → List Char
  | int n => (toString n.toInt).toList
  | array items => itemsBody items
  | dict pairs => pairsBody pairs
  | ref _ => []

def itemsBody : List Value → List Char
  | [] => []
  | item :: items => elementMarkup itemName item.tag? item.body ++ itemsBody items

def pairsBody : List (String × Value) → List Char
  | [] => []
  | (key, value) :: pairs => elementMarkup key.toList value.tag? value.body ++ pairsBody pairs

end

mutual

theorem firstRef?_of_writable {v : Value} (h : v.Writable) : v.firstRef? = none := by
  cases v with
  | int n => rfl
  | array items => exact itemsFirstRef?_of_writable h
  | dict pairs => exact pairsFirstRef?_of_writable h
  | ref r => cases h

theorem itemsFirstRef?_of_writable {items : List Value} (h : ItemsWritable items) :
    itemsFirstRef? items = none := by
  cases items with
  | nil => rfl
  | cons item items =>
    rw [itemsFirstRef?, firstRef?_of_writable h.1, itemsFirstRef?_of_writable h.2]
    rfl

theorem pairsFirstRef?_of_writable {pairs : List (String × Value)} (h : PairsWritable pairs) :
    pairsFirstRef? pairs = none := by
  match pairs with
  | [] => rfl
  | (key, value) :: pairs =>
    rw [pairsFirstRef?, firstRef?_of_writable h.2.1, pairsFirstRef?_of_writable h.2.2]
    rfl

end

end Value

theorem checkElementName_eq_ok_iff {name : String} :
    checkElementName name = .ok () ↔ Text.isWord name.toList = true := by
  unfold checkElementName
  split <;> simp_all

namespace Value

mutual

theorem content_eq_ok_iff {v : Value} {text : List Char} :
    v.content = .ok text ↔ v.Writable ∧ text = v.body := by
  cases v with
  | int n => simp [content, Writable, body, eq_comm]
  | array items => exact itemsContent_eq_ok_iff
  | dict pairs => exact pairsContent_eq_ok_iff
  | ref r => simp [content, Writable]

theorem itemsContent_eq_ok_iff {items : List Value} {text : List Char} :
    itemsContent items = .ok text ↔ ItemsWritable items ∧ text = itemsBody items := by
  cases items with
  | nil => simp [itemsContent, ItemsWritable, itemsBody, eq_comm]
  | cons item items =>
    simp only [itemsContent, ItemsWritable, itemsBody, bind_eq_ok_iff]
    constructor
    · intro h
      obtain ⟨first, hfirst, later, hlater, written⟩ := h
      obtain ⟨writable, rfl⟩ := content_eq_ok_iff.mp hfirst
      obtain ⟨writables, rfl⟩ := itemsContent_eq_ok_iff.mp hlater
      cases written
      exact ⟨⟨writable, writables⟩, rfl⟩
    · intro h
      obtain ⟨⟨writable, writables⟩, rfl⟩ := h
      exact ⟨_, content_eq_ok_iff.mpr ⟨writable, rfl⟩, _,
        itemsContent_eq_ok_iff.mpr ⟨writables, rfl⟩, rfl⟩

theorem pairsContent_eq_ok_iff {pairs : List (String × Value)} {text : List Char} :
    pairsContent pairs = .ok text ↔ PairsWritable pairs ∧ text = pairsBody pairs := by
  match pairs with
  | [] => simp [pairsContent, PairsWritable, pairsBody, eq_comm]
  | (key, value) :: pairs =>
    simp only [pairsContent, PairsWritable, pairsBody, bind_eq_ok_iff]
    constructor
    · intro h
      obtain ⟨_, hname, first, hfirst, later, hlater, written⟩ := h
      have word := checkElementName_eq_ok_iff.mp hname
      obtain ⟨writable, rfl⟩ := content_eq_ok_iff.mp hfirst
      obtain ⟨writables, rfl⟩ := pairsContent_eq_ok_iff.mp hlater
      cases written
      exact ⟨⟨word, writable, writables⟩, rfl⟩
    · intro h
      obtain ⟨⟨word, writable, writables⟩, rfl⟩ := h
      exact ⟨(), checkElementName_eq_ok_iff.mpr word, _, content_eq_ok_iff.mpr ⟨writable, rfl⟩, _,
        pairsContent_eq_ok_iff.mpr ⟨writables, rfl⟩, rfl⟩

end

end Value

def Entry.Writable (e : Entry) : Prop :=
  Text.isWord e.name.toList = true ∧ e.value.Writable

theorem Entry.markup_eq_ok_iff {e : Entry} {xml : String} :
    e.markup = .ok xml ↔
      e.Writable ∧ xml = String.ofList (elementMarkup e.name.toList none e.value.body) := by
  simp only [Entry.markup, Entry.Writable, bind_eq_ok_iff]
  constructor
  · intro h
    obtain ⟨_, hname, content, hcontent, written⟩ := h
    have word := checkElementName_eq_ok_iff.mp hname
    obtain ⟨writable, rfl⟩ := Value.content_eq_ok_iff.mp hcontent
    cases written
    exact ⟨⟨word, writable⟩, rfl⟩
  · intro h
    obtain ⟨⟨word, writable⟩, rfl⟩ := h
    exact ⟨(), checkElementName_eq_ok_iff.mpr word, _, Value.content_eq_ok_iff.mpr ⟨writable, rfl⟩,
      rfl⟩

end TypedConfig
