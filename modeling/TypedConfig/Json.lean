import TypedConfig.Document

namespace TypedConfig

inductive JsonValue where
  | null
  | int (n : Int)
  | string (s : String)
  | array (items : List JsonValue)
  | object (members : List (String × JsonValue))

inductive JsonLayout where
  | compact
  | indented
deriving DecidableEq

namespace JsonLayout

def lineBreak (layout : JsonLayout) (level : Nat) : List Char :=
  match layout with
  | compact => []
  | indented => '\n' :: List.replicate (2 * level) ' '

def colon (layout : JsonLayout) : List Char :=
  match layout with
  | compact => [':']
  | indented => [':', ' ']

end JsonLayout

namespace JsonValue

def escape (c : Char) : List Char :=
  if c = '"' then ['\\', '"']
  else if c = '\\' then ['\\', '\\']
  else if c = '\x08' then ['\\', 'b']
  else if c = '\x0c' then ['\\', 'f']
  else if c = '\n' then ['\\', 'n']
  else if c = '\r' then ['\\', 'r']
  else if c = '\t' then ['\\', 't']
  else if c.toNat < 0x20 then
    ['\\', 'u', '0', '0', Nat.digitChar (c.toNat / 16), Nat.digitChar (c.toNat % 16)]
  else [c]

example : escape '\x1f' = "\\u001f".toList := by decide

example : escape '\x7f' = ['\x7f'] := by decide

def quote (s : String) : List Char :=
  '"' :: (s.toList.flatMap escape ++ ['"'])

mutual

/-- The text of a tree whose first character stands at nesting `level`. -/
def render (layout : JsonLayout) (level : Nat) : JsonValue → List Char
  | null => ['n', 'u', 'l', 'l']
  | int n => (toString n).toList
  | string s => quote s
  | array [] => ['[', ']']
  | array (item :: items) =>
    '[' :: (layout.lineBreak (level + 1) ++
      (item.render layout (level + 1) ++ renderItems layout level items))
  | object [] => ['\x7b', '\x7d']
  | object ((name, value) :: members) =>
    '\x7b' :: (layout.lineBreak (level + 1) ++ quote name ++ layout.colon ++
      (value.render layout (level + 1) ++ renderMembers layout level members))

def renderItems (layout : JsonLayout) (level : Nat) : List JsonValue → List Char
  | [] => layout.lineBreak level ++ [']']
  | item :: items =>
    ',' :: (layout.lineBreak (level + 1) ++
      (item.render layout (level + 1) ++ renderItems layout level items))

def renderMembers (layout : JsonLayout) (level : Nat) : List (String × JsonValue) → List Char
  | [] => layout.lineBreak level ++ ['\x7d']
  | (name, value) :: members =>
    ',' :: (layout.lineBreak (level + 1) ++ quote name ++ layout.colon ++
      (value.render layout (level + 1) ++ renderMembers layout level members))

end

def text (layout : JsonLayout) (j : JsonValue) : String :=
  String.ofList (j.render layout 0)

end JsonValue

def Tag.json : Option Tag → JsonValue
  | some tag => .string tag.text
  | none => .null

namespace Value

mutual

def jsonMembers : Value → List (String × JsonValue)
  | int n => [("type", .string Tag.int.text), ("value", .int n.toInt)]
  | array items => [("type", .string Tag.array.text), ("value", .array (itemsJson items))]
  | dict pairs => [("type", .string Tag.dict.text), ("value", .array (pairsJson pairs))]
  | ref r => [("ref", .string r.name)]

def itemsJson : List Value → List JsonValue
  | [] => []
  | item :: items => .object item.jsonMembers :: itemsJson items

def pairsJson : List (String × Value) → List JsonValue
  | [] => []
  | (key, value) :: pairs => .object (("key", .string key) :: value.jsonMembers) :: pairsJson pairs

end

def json (v : Value) : JsonValue := .object v.jsonMembers

end Value

namespace Entry

def json (e : Entry) : JsonValue :=
  .object [("name", .string e.name), ("value", e.value.json)]

def exportJson (e : Entry) : Except Diagnostic String :=
  match e.value.firstRef? with
  | some r =>
    .error ⟨.unresolved r.name, some "Resolve the document before exporting it", some 402⟩
  | none => .ok (e.json.text .indented)

end Entry

end TypedConfig
