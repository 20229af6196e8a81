import TypedConfig.Document

namespace TypedConfig

structure Constant where
  name : String
  value : Value
  depth : Nat
deriving DecidableEq

structure ConstantTable where
  constants : List Constant
deriving DecidableEq

namespace ConstantTable

def empty : ConstantTable := ⟨[]⟩

def names (t : ConstantTable) : List String := t.constants.map Constant.name

def size (t : ConstantTable) : Nat := t.constants.length

def isEmpty (t : ConstantTable) : Bool := t.constants.isEmpty

def find? (t : ConstantTable) (name : String) : Option Constant :=
  t.constants.find? (·.name = name)

def get? (t : ConstantTable) (name : String) : Option Value :=
  (t.find? name).map Constant.value

def duplicate (name : String) (p : Position) : Diagnostic :=
  ⟨.duplicateConstant name p, some "Each constant can only be declared once", some 301⟩

def unknown (r : Reference) : Diagnostic :=
  ⟨.unknownConstant r.name r.position,
    some "Constants must be declared with 'var' before they are used", some 302⟩

def unresolved (name inner : String) : Diagnostic :=
  ⟨.unresolved inner, some s!"Resolve '{name}' before declaring it", some 303⟩

def lookup (t : ConstantTable) (r : Reference) : Except Diagnostic Constant :=
  match t.find? r.name with
  | some constant => .ok constant
  | none => .error (unknown r)

def ensureUndeclared (t : ConstantTable) (name : String) (p : Position) : Except Diagnostic Unit :=
  match t.find? name with
  | some _ => .error (duplicate name p)
  | none => .ok ()

def declare (t : ConstantTable) (d : Declaration) : Except Diagnostic ConstantTable := do
  t.ensureUndeclared d.name d.position
  match d.value.firstRef? with
  | some inner => .error (unresolved d.name inner.name)
  | none => .ok ⟨t.constants ++ [⟨d.name, d.value, d.value.depth⟩]⟩

theorem declare_eq_ok_iff {t t' : ConstantTable} {d : Declaration} :
    t.declare d = .ok t' ↔ t.find? d.name = none ∧ d.value.firstRef? = none ∧
      t' = ⟨t.constants ++ [⟨d.name, d.value, d.value.depth⟩]⟩ := by
  unfold declare ensureUndeclared
  cases t.find? d.name <;> cases d.value.firstRef? <;>
    simp [Bind.bind, Except.bind, eq_comm]

theorem find?_append (constants more : List Constant) (name : String) :
    find? ⟨constants ++ more⟩ name = (find? ⟨constants⟩ name).or (find? ⟨more⟩ name) :=
  List.find?_append

end ConstantTable

def Reference.tooDeep (r : Reference) (limit depth enclosing : Nat) : Diagnostic :=
  ⟨.tooDeep limit r.position,
    some s!"'{r.name}' is {depth} levels deep and is used {enclosing} levels down", some 304⟩

def Reference.resolve (r : Reference) (table : ConstantTable) (limit enclosing : Nat) :
    Except Diagnostic Value := do
  let constant ← table.lookup r
  if enclosing + constant.depth ≤ limit then .ok constant.value
  else .error (r.tooDeep limit constant.depth enclosing)

mutual

/-- Resolves a value inside `enclosing` containers. The first reference that cannot be replaced
decides the error. -/
def Value.resolveWithin (table : ConstantTable) (limit enclosing : Nat) :
    Value → Except Diagnostic Value
  | .int n => .ok (.int n)
  | .ref r => r.resolve table limit enclosing
  | .array items => return .array (← resolveItems table limit (enclosing + 1) items)
  | .dict pairs => return .dict (← resolvePairs table limit (enclosing + 1) pairs)

def Value.resolveItems (table : ConstantTable) (limit enclosing : Nat) :
    List Value → Except Diagnostic (List Value)
  | [] => .ok []
  | item :: items => do
    let item ← item.resolveWithin table limit enclosing
    let items ← resolveItems table limit enclosing items
    return item :: items

def Value.resolvePairs (table : ConstantTable) (limit enclosing : Nat) :
    List (String × Value) → Except Diagnostic (List (String × Value))
  | [] => .ok []
  | (key, value) :: pairs => do
    let value ← value.resolveWithin table limit enclosing
    let pairs ← resolvePairs table limit enclosing pairs
    return (key, value) :: pairs

end

def Value.resolve (v : Value) (table : ConstantTable) (limit : Nat) : Except Diagnostic Value :=
  v.resolveWithin table limit 0

def ConstantTable.addDeclaration (limit : Nat) (table : ConstantTable) (d : Declaration) :
    Except Diagnostic ConstantTable := do
  table.ensureUndeclared d.name d.position
  let value ← d.value.resolve table limit
  table.declare { d with value }

def Document.resolve (d : Document) (limit : Nat) : Except Diagnostic (ConstantTable × Entry) := do
  let table ← d.constants.foldlM (ConstantTable.addDeclaration limit) .empty
  let value ← d.entry.value.resolve table limit
  return (table, ⟨d.entry.name, value⟩)

def Constant.ofDeclaration (d : Declaration) : Constant := ⟨d.name, d.value, d.value.depth⟩

namespace ConstantTable

inductive Call where
  | declare (d : Declaration)
  | ensureUndeclared (name : String) (position : Position)
  | lookup (r : Reference)
  | lookupWithDepth (r : Reference)
  | get (name : String)
  | resolve (v : Value) (limit : Nat)

inductive Answer where
  | done
  | value (v : Value)
  | measured (v : Value) (depth : Nat)
  | found (v : Option Value)

def step (t : ConstantTable) : Call → Except Diagnostic Answer × ConstantTable
  | .declare d =>
    match t.declare d with
    | .ok table => (.ok .done, table)
    | .error e => (.error e, t)
  | .ensureUndeclared name p => ((t.ensureUndeclared name p).map fun _ => .done, t)
  | .lookup r => ((t.lookup r).map fun c => .value c.value, t)
  | .lookupWithDepth r => ((t.lookup r).map fun c => .measured c.value c.depth, t)
  | .get name => (.ok (.found (t.get? name)), t)
  | .resolve v limit => ((v.resolve t limit).map .value, t)

def run (t : ConstantTable) (calls : List Call) : ConstantTable :=
  calls.foldl (fun t call => (t.step call).2) t

def declared? (t : ConstantTable) (call : Call) : Option Declaration :=
  match call, (t.step call).1 with
  | .declare d, .ok _ => some d
  | _, _ => none

def declared (t : ConstantTable) : List Call → List Declaration
  | [] => []
  | call :: calls => (t.declared? call).toList ++ (t.step call).2.declared calls

@[simp] theorem run_nil (t : ConstantTable) : t.run [] = t := rfl

@[simp] theorem run_cons (t : ConstantTable) (call : Call) (calls : List Call) :
    t.run (call :: calls) = (t.step call).2.run calls := rfl

theorem run_append (t : ConstantTable) (first later : List Call) :
    t.run (first ++ later) = (t.run first).run later :=
  List.foldl_append

end ConstantTable

end TypedConfig
