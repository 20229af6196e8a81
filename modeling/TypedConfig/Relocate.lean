import TypedConfig.ConstantTable
import TypedConfig.Cursor

namespace TypedConfig

/-- The place `p` of a text, when that text starts where `base` has been read up to. -/
def Position.shift (base p : Position) : Position :=
  if p.line = 1 then ⟨base.line, base.column + p.column⟩ else ⟨base.line + p.line - 1, p.column⟩

theorem Position.shift_after {p : Position} (base : Position) (h : 1 ≤ p.line)
    (text : List Char) : (base.shift p).after text = base.shift (p.after text) := by
  induction text generalizing p with
  | nil => rfl
  | cons c text ih =>
    have moved : (base.shift p).step c = base.shift (p.step c) := by
      unfold Position.step
      by_cases hc : c = '\n'
      · have later : p.line ≠ 0 := Nat.ne_of_gt h
        unfold Position.shift
        by_cases hp : p.line = 1
        · simp [hc, hp]
        · simp [hc, hp, later]
          omega
      · unfold Position.shift
        by_cases hp : p.line = 1 <;> simp [hc, hp, Nat.add_assoc]
    rw [after_cons, after_cons, moved]
    apply ih
    unfold Position.step
    split
    · exact Nat.le_add_left 1 p.line
    · exact h

def Reading.shift (base : Position) (r : Reading) : Reading :=
  ⟨base.shift r.start, r.lexeme, base.shift r.stop⟩

def Reference.relocate (f : Position → Position) (r : Reference) : Reference :=
  ⟨r.name, f r.position⟩

namespace Value

mutual

def relocate (f : Position → Position) : Value → Value
  | int n => int n
  | ref r => ref ⟨r.name, f r.position⟩
  | array items => array (relocateItems f items)
  | dict pairs => dict (relocatePairs f pairs)

def relocateItems (f : Position → Position) : List Value → List Value
  | [] => []
  | item :: items => item.relocate f :: relocateItems f items

def relocatePairs (f : Position → Position) : List (String × Value) → List (String × Value)
  | [] => []
  | (key, value) :: pairs => (key, value.relocate f) :: relocatePairs f pairs

end

end Value

def Declaration.relocate (f : Position → Position) (d : Declaration) : Declaration :=
  ⟨d.name, d.value.relocate f, f d.position⟩

def Entry.relocate (f : Position → Position) (e : Entry) : Entry :=
  ⟨e.name, e.value.relocate f⟩

def Document.relocate (f : Position → Position) (d : Document) : Document :=
  ⟨d.constants.map (Declaration.relocate f), d.entry.relocate f⟩

def Problem.relocate (f : Position → Position) : Problem → Problem
  | malformed message p => malformed message (f p)
  | unexpectedToken token p => unexpectedToken token (f p)
  | unexpectedEnd message p => unexpectedEnd message (f p)
  | unexpectedCharacter character p => unexpectedCharacter character (f p)
  | tooDeep limit p => tooDeep limit (f p)
  | duplicateConstant name p => duplicateConstant name (f p)
  | unknownConstant name p => unknownConstant name (f p)
  | unresolved name => unresolved name
  | invalidName name => invalidName name
  | markup message => markup message
  | inputOutput message => inputOutput message

def Diagnostic.relocate (f : Position → Position) (d : Diagnostic) : Diagnostic :=
  { d with problem := d.problem.relocate f }

def Diagnostic.SameButForPlace (e e' : Diagnostic) : Prop :=
  e.relocate (fun _ => .origin) = e'.relocate fun _ => .origin

def Reference.rename (f : String → String) (r : Reference) : Reference :=
  ⟨f r.name, r.position⟩

namespace Value

mutual

def mapRefs (g : Reference → Reference) : Value → Value
  | int n => int n
  | ref r => ref (g r)
  | array items => array (itemsMapRefs g items)
  | dict pairs => dict (pairsMapRefs g pairs)

def itemsMapRefs (g : Reference → Reference) : List Value → List Value
  | [] => []
  | item :: items => item.mapRefs g :: itemsMapRefs g items

def pairsMapRefs (g : Reference → Reference) : List (String × Value) → List (String × Value)
  | [] => []
  | (key, value) :: pairs => (key, value.mapRefs g) :: pairsMapRefs g pairs

end

end Value

def Declaration.rename (f : String → String) (d : Declaration) : Declaration :=
  ⟨f d.name, d.value.mapRefs (.rename f), d.position⟩

def Document.rename (f : String → String) (d : Document) : Document :=
  ⟨d.constants.map (.rename f), ⟨d.entry.name, d.entry.value.mapRefs (.rename f)⟩⟩

def Constant.rename (f : String → String) (c : Constant) : Constant :=
  ⟨f c.name, c.value, c.depth⟩

def ConstantTable.rename (f : String → String) (t : ConstantTable) : ConstantTable :=
  ⟨t.constants.map (.rename f)⟩

theorem ConstantTable.rename_id (t : ConstantTable) : t.rename id = t :=
  congrArg mk (List.map_id t.constants)

/-- The second report says of `g r` what the first one says of `r`. -/
inductive Diagnostic.Transfers (g : Reference → Reference) : Diagnostic → Diagnostic → Prop where
  | duplicate (r : Reference) : Transfers g (ConstantTable.duplicate r.name r.position)
      (ConstantTable.duplicate (g r).name (g r).position)
  | unknown (r : Reference) : Transfers g (ConstantTable.unknown r) (ConstantTable.unknown (g r))
  | tooDeep (r : Reference) (limit depth enclosing : Nat) :
      Transfers g (r.tooDeep limit depth enclosing) ((g r).tooDeep limit depth enclosing)

end TypedConfig
