import TypedConfig.Document

namespace TypedConfig

def checkElementName (name : String) : Except Diagnostic Unit :=
  if Text.isWord name.toList then .ok ()
  else
    .error ⟨.invalidName name, some "Names start with a letter followed by letters, digits or '_'",
      some 401⟩

def Tag.attribute : Option Tag → List Char
  | some tag => " type=\"".toList ++ tag.text.toList ++ ['"']
  | none => []

def elementMarkup (name : List Char) (tag : Option Tag) (content : List Char) : List Char :=
  '<' :: (name ++ Tag.attribute tag ++ '>' :: (content ++ '<' :: '/' :: (name ++ ['>'])))

def itemName : List Char := "element".toList

namespace Value

mutual

def content : Value → Except Diagnostic (List Char)
  | int n => .ok (toString n.toInt).toList
  | array items => itemsContent items
  | dict pairs => pairsContent pairs
  | ref r => .error ⟨.unresolved r.name, some "Resolve the document before emitting it", some 402⟩

def itemsContent : List Value → Except Diagnostic (List Char)
  | [] => .ok []
  | item :: items => do
    let first := elementMarkup itemName item.tag? (← item.content)
    return first ++ (← itemsContent items)

def pairsContent : List (String × Value) → Except Diagnostic (List Char)
  | [] => .ok []
  | (key, value) :: pairs => do
    checkElementName key
    let first := elementMarkup key.toList value.tag? (← value.content)
    return first ++ (← pairsContent pairs)

end

end Value

def Entry.markup (e : Entry) : Except Diagnostic String := do
  checkElementName e.name
  return String.ofList (elementMarkup e.name.toList none (← e.value.content))

def IsElementName (name : String) : Prop :=
  ∃ first rest, name.toList = first :: rest ∧
    ('A' ≤ first ∧ first ≤ 'Z' ∨ 'a' ≤ first ∧ first ≤ 'z') ∧
    ∀ c ∈ rest, 'A' ≤ c ∧ c ≤ 'Z' ∨ 'a' ≤ c ∧ c ≤ 'z' ∨ '0' ≤ c ∧ c ≤ '9' ∨ c = '_'

inductive Spot where
  | name (text : String)
  | reference (r : Reference)

namespace Value

mutual

/-- The keys and references of a value at any depth. A key comes before the value under it. -/
def spots : Value → List Spot
  | int _ => []
  | ref r => [.reference r]
  | array items => itemsSpots items
  | dict pairs => pairsSpots pairs

def itemsSpots : List Value → List Spot
  | [] => []
  | item :: items => item.spots ++ itemsSpots items

def pairsSpots : List (String × Value) → List Spot
  | [] => []
  | (key, value) :: pairs => .name key :: value.spots ++ pairsSpots pairs

end

end Value

def Entry.spots (e : Entry) : List Spot :=
  .name e.name :: e.value.spots

namespace Spot

def IsWritable : Spot → Prop
  | name text => IsElementName text
  | reference _ => False

def report : Spot → Diagnostic
  | name text =>
    ⟨.invalidName text, some "Names start with a letter followed by letters, digits or '_'",
      some 401⟩
  | reference r => ⟨.unresolved r.name, some "Resolve the document before emitting it", some 402⟩

end Spot

def indent (level : Nat) : List Char := List.replicate level '\t'

def containerPicture (level : Nat) (name : List Char) (tag : Option Tag) (children : List Char) :
    List Char :=
  if children.isEmpty then '<' :: (name ++ Tag.attribute tag ++ ['/', '>'])
  else
    '<' :: (name ++ Tag.attribute tag ++ '>' :: (children ++
      '\n' :: (indent level ++ '<' :: '/' :: (name ++ ['>']))))

namespace Value

mutual

/-- The element for a value at `level`, without the line break and the tabs before it. -/
def picture (level : Nat) (name : List Char) (tag : Option Tag) : Value → List Char
  | int n => elementMarkup name tag (toString n.toInt).toList
  | array items => containerPicture level name tag (itemsPicture (level + 1) items)
  | dict pairs => containerPicture level name tag (pairsPicture (level + 1) pairs)
  | ref _ => []

def itemsPicture (level : Nat) : List Value → List Char
  | [] => []
  | item :: items =>
    '\n' :: (indent level ++ item.picture level itemName item.tag? ++ itemsPicture level items)

def pairsPicture (level : Nat) : List (String × Value) → List Char
  | [] => []
  | (key, value) :: pairs =>
    '\n' :: (indent level ++ value.picture level key.toList value.tag? ++ pairsPicture level pairs)

end

end Value

def Entry.picture (e : Entry) : List Char :=
  e.value.picture 0 e.name.toList none

end TypedConfig
