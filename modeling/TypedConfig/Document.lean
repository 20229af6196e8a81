import TypedConfig.Diagnostic

namespace TypedConfig

structure Reference where
  name : String
  position : Position
deriving DecidableEq

inductive Value where
  | int (n : Int64)
  | array (items : List Value)
  | dict (pairs : List (String × Value))
  | ref (reference : Reference)

inductive Tag where
  | int
  | array
  | dict
deriving DecidableEq

def Tag.text : Tag → String
  | int => "int"
  | array => "array"
  | dict => "dict"

namespace Value

def tag? : Value → Option Tag
  | int _ => some .int
  | array _ => some .array
  | dict _ => some .dict
  | ref _ => none

def dictKeys? : Value → Option (List String)
  | dict pairs => some (pairs.map Prod.fst)
  | _ => none

mutual

def depth : Value → Nat
  | int _ | ref _ => 0
  | array items => 1 + itemsDepth items
  | dict pairs => 1 + pairsDepth pairs

def itemsDepth : List Value → Nat
  | [] => 0
  | item :: items => max item.depth (itemsDepth items)

def pairsDepth : List (String × Value) → Nat
  | [] => 0
  | (_, value) :: pairs => max value.depth (pairsDepth pairs)

end

mutual

def firstRef? : Value → Option Reference
  | int _ => none
  | ref reference => some reference
  | array items => itemsFirstRef? items
  | dict pairs => pairsFirstRef? pairs

def itemsFirstRef? : List Value → Option Reference
  | [] => none
  | item :: items => item.firstRef?.or (itemsFirstRef? items)

def pairsFirstRef? : List (String × Value) → Option Reference
  | [] => none
  | (_, value) :: pairs => value.firstRef?.or (pairsFirstRef? pairs)

end

def isResolved (v : Value) : Bool :=
  v.firstRef?.isNone

mutual

def decideEq : (v w : Value) → Decidable (v = w)
  | int m, int n => if h : m = n then .isTrue (by rw [h]) else .isFalse (by simpa using h)
  | ref a, ref b => if h : a = b then .isTrue (by rw [h]) else .isFalse (by simpa using h)
  | array xs, array ys =>
    match decideEqItems xs ys with
    | .isTrue h => .isTrue (by rw [h])
    | .isFalse h => .isFalse (by simpa using h)
  | dict ps, dict qs =>
    match decideEqPairs ps qs with
    | .isTrue h => .isTrue (by rw [h])
    | .isFalse h => .isFalse (by simpa using h)
  | int _, array _ | int _, dict _ | int _, ref _ | array _, int _ | array _, dict _
  | array _, ref _ | dict _, int _ | dict _, array _ | dict _, ref _ | ref _, int _
  | ref _, array _ | ref _, dict _ => .isFalse nofun

def decideEqItems : (xs ys : List Value) → Decidable (xs = ys)
  | [], [] => .isTrue rfl
  | [], _ :: _ | _ :: _, [] => .isFalse nofun
  | x :: xs, y :: ys =>
    match decideEq x y, decideEqItems xs ys with
    | .isTrue hx, .isTrue hxs => .isTrue (by rw [hx, hxs])
    | .isFalse hx, _ => .isFalse fun h => hx (List.cons.inj h).1
    | _, .isFalse hxs => .isFalse fun h => hxs (List.cons.inj h).2

def decideEqPairs : (ps qs : List (String × Value)) → Decidable (ps = qs)
  | [], [] => .isTrue rfl
  | [], _ :: _ | _ :: _, [] => .isFalse nofun
  | (k, v) :: ps, (l, w) :: qs =>
    match decEq k l, decideEq v w, decideEqPairs ps qs with
    | .isTrue hk, .isTrue hv, .isTrue hps => .isTrue (by rw [hk, hv, hps])
    | .isFalse hk, _, _ => .isFalse fun h => hk (Prod.mk.inj (List.cons.inj h).1).1
    | _, .isFalse hv, _ => .isFalse fun h => hv (Prod.mk.inj (List.cons.inj h).1).2
    | _, _, .isFalse hps => .isFalse fun h => hps (List.cons.inj h).2

end

instance : DecidableEq Value := decideEq

end Value

structure Declaration where
  name : String
  value : Value
  position : Position
deriving DecidableEq

structure Entry where
  name : String
  value : Value
deriving DecidableEq

structure Document where
  constants : List Declaration
  entry : Entry
deriving DecidableEq

end TypedConfig
