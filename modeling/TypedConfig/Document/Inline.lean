import TypedConfig.ConstantTable

namespace TypedConfig

namespace Value

mutual

def substitute? (meaning : String → Option Value) : Value → Option Value
  | int n => some (int n)
  | ref r => meaning r.name
  | array items => (substituteItems? meaning items).map array
  | dict pairs => (substitutePairs? meaning pairs).map dict

def substituteItems? (meaning : String → Option Value) : List Value → Option (List Value)
  | [] => some []
  | item :: items => do return (← item.substitute? meaning) :: (← substituteItems? meaning items)

def substitutePairs? (meaning : String → Option Value) :
    List (String × Value) → Option (List (String × Value))
  | [] => some []
  | (key, value) :: pairs => do
    return (key, ← value.substitute? meaning) :: (← substitutePairs? meaning pairs)

end

mutual

/-- The references in a value inside `enclosing` containers, in the order of the source, each with
the number of containers around it. -/
def occurrences (enclosing : Nat) : Value → List (Nat × Reference)
  | int _ => []
  | ref r => [(enclosing, r)]
  | array items => itemsOccurrences (enclosing + 1) items
  | dict pairs => pairsOccurrences (enclosing + 1) pairs

def itemsOccurrences (enclosing : Nat) : List Value → List (Nat × Reference)
  | [] => []
  | item :: items => item.occurrences enclosing ++ itemsOccurrences enclosing items

def pairsOccurrences (enclosing : Nat) : List (String × Value) → List (Nat × Reference)
  | [] => []
  | (_, value) :: pairs => value.occurrences enclosing ++ pairsOccurrences enclosing pairs

end

mutual

/-- The first reference is the first occurrence. -/
theorem firstRef?_eq_head? (enclosing : Nat) (v : Value) :
    v.firstRef? = (v.occurrences enclosing).head?.map Prod.snd := by
  cases v with
  | int n => rfl
  | ref r => rfl
  | array items => exact itemsFirstRef?_eq_head? (enclosing + 1) items
  | dict pairs => exact pairsFirstRef?_eq_head? (enclosing + 1) pairs

theorem itemsFirstRef?_eq_head? (enclosing : Nat) (items : List Value) :
    itemsFirstRef? items = (itemsOccurrences enclosing items).head?.map Prod.snd := by
  cases items with
  | nil => rfl
  | cons item items =>
    rw [itemsFirstRef?, itemsOccurrences, firstRef?_eq_head? enclosing item,
      itemsFirstRef?_eq_head? enclosing items, List.head?_append]
    cases (item.occurrences enclosing).head? <;> rfl

theorem pairsFirstRef?_eq_head? (enclosing : Nat) (pairs : List (String × Value)) :
    pairsFirstRef? pairs = (pairsOccurrences enclosing pairs).head?.map Prod.snd := by
  match pairs with
  | [] => rfl
  | (key, value) :: pairs =>
    rw [pairsFirstRef?, pairsOccurrences, firstRef?_eq_head? enclosing value,
      pairsFirstRef?_eq_head? enclosing pairs, List.head?_append]
    cases (value.occurrences enclosing).head? <;> rfl

end

end Value

/-- What a name means after `declarations`, of which the latest comes first. The value of a
declaration sees those before it only. -/
def meaning? : List Declaration → String → Option Value
  | [], _ => none
  | d :: earlier, name =>
    if d.name = name then d.value.substitute? (meaning? earlier) else meaning? earlier name

def Document.inline? (d : Document) : Option Value :=
  d.entry.value.substitute? (meaning? d.constants.reverse)

namespace Value

def useDepth (meaning : String → Option Value) (o : Nat × Reference) : Nat :=
  o.1 + ((meaning o.2.name).map depth).getD 0

/-- How far down the deepest of some uses reaches. -/
def deepestUse (meaning : String → Option Value) (occurrences : List (Nat × Reference)) : Nat :=
  (occurrences.map (useDepth meaning)).foldr max 0

def NamesOnly (names : List String) (v : Value) : Prop :=
  ∀ o ∈ v.occurrences 0, o.2.name ∈ names

/-- No constant that the value refers to reaches deeper than `limit` where it is used. -/
def UsesWithin (limit : Nat) (declarations : List Declaration) (v : Value) : Prop :=
  ∀ o ∈ v.occurrences 0, ∀ m, meaning? declarations o.2.name = some m → o.1 + m.depth ≤ limit

end Value

namespace Document

/-- Names are distinct, each use of one comes after its declaration, and nothing that is inlined
reaches too deep. -/
structure Inlinable (limit : Nat) (d : Document) : Prop where
  distinct : (d.constants.map Declaration.name).Nodup
  known : ∀ before c after, d.constants = before ++ c :: after →
    c.value.NamesOnly (before.map Declaration.name)
  entryKnown : d.entry.value.NamesOnly (d.constants.map Declaration.name)
  uses : ∀ before c after, d.constants = before ++ c :: after →
    c.value.UsesWithin limit before.reverse
  entryUses : d.entry.value.UsesWithin limit d.constants.reverse

structure InlinesTo (d : Document) (table : ConstantTable) (entry : Entry) : Prop where
  names : table.constants.map Constant.name = d.constants.map Declaration.name
  values : ∀ c ∈ table.constants, meaning? d.constants.reverse c.name = some c.value
  depths : ∀ c ∈ table.constants, c.depth = c.value.depth
  entryName : entry.name = d.entry.name
  entryValue : d.inline? = some entry.value

end Document

def Reference.offence? (declarations : List Declaration) (limit enclosing : Nat) (r : Reference) :
    Option Diagnostic :=
  match meaning? declarations r.name with
  | none => some (ConstantTable.unknown r)
  | some v => if enclosing + v.depth ≤ limit then none else some (r.tooDeep limit v.depth enclosing)

def Value.offence? (declarations : List Declaration) (limit : Nat) (v : Value) :
    Option Diagnostic :=
  (v.occurrences 0).findSome? fun (enclosing, r) => r.offence? declarations limit enclosing

def Declaration.offence? (earlier : List Declaration) (limit : Nat) (d : Declaration) :
    Option Diagnostic :=
  if d.name ∈ earlier.map Declaration.name then some (ConstantTable.duplicate d.name d.position)
  else d.value.offence? earlier limit

/-- What is wrong with the first of some declarations that cannot be kept, or with the value after
them. The latest of those before comes first in `earlier`. -/
def firstOffence? (limit : Nat) (v : Value) (earlier : List Declaration) :
    List Declaration → Option Diagnostic
  | [] => v.offence? earlier limit
  | d :: later => (d.offence? earlier limit).or (firstOffence? limit v (d :: earlier) later)

def Document.offence? (limit : Nat) (d : Document) : Option Diagnostic :=
  firstOffence? limit d.entry.value [] d.constants

/-- The name of a declaration, or a reference inside `enclosing` containers, with the declarations
before it, the latest first. -/
inductive Site where
  | declared (earlier : List Declaration) (name : String) (position : Position)
  | used (earlier : List Declaration) (enclosing : Nat) (reference : Reference)

def Value.sites (earlier : List Declaration) (v : Value) : List Site :=
  (v.occurrences 0).map fun (enclosing, r) => .used earlier enclosing r

def Declaration.sites (earlier : List Declaration) (d : Declaration) : List Site :=
  .declared earlier d.name d.position :: d.value.sites earlier

def sitesAfter (v : Value) (earlier : List Declaration) : List Declaration → List Site
  | [] => v.sites earlier
  | d :: later => d.sites earlier ++ sitesAfter v (d :: earlier) later

def Document.sites (d : Document) : List Site :=
  sitesAfter d.entry.value [] d.constants

def Site.offence? (limit : Nat) : Site → Option Diagnostic
  | declared earlier name p =>
    if name ∈ earlier.map Declaration.name then some (ConstantTable.duplicate name p) else none
  | used earlier enclosing r =>
    if r.name ∉ earlier.map Declaration.name then some (ConstantTable.unknown r)
    else (meaning? earlier r.name).bind fun v =>
      if limit < enclosing + v.depth then some (r.tooDeep limit v.depth enclosing) else none

end TypedConfig
