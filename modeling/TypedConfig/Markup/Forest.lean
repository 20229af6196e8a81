import TypedConfig.Markup.Layout

namespace TypedConfig.Markup

inductive Node where
  | element (content name : List Char) (children : List Node)
  | single (event : Event)

namespace Node

/-- `siblings` come before the events in the innermost open element, and `outer` holds the start
tags of the open elements with what comes before each. -/
def build? (outer : List (List Char × List Node)) (siblings : List Node) :
    List Event → Option (List Node)
  | [] => if outer.isEmpty then some siblings else none
  | .startTag content :: events => build? ((content, siblings) :: outer) [] events
  | .endTag name :: events =>
    match outer with
    | [] => none
    | (content, before) :: outer =>
      build? outer (before ++ [element content name siblings]) events
  | event :: events => build? outer (siblings ++ [single event]) events

def ofEvents? (events : List Event) : Option (List Node) :=
  build? [] [] events

def isElement : Node → Bool
  | element .. | single (.emptyTag _) => true
  | single _ => false

def isText : Node → Bool
  | single (.text _) | single (.cdata _) => true
  | _ => false

def line (breaks : Bool) (level : Nat) (e : Event) : List Char :=
  (if breaks then '\n' :: List.replicate level '\t' else []) ++ e.written

mutual

/-- The text of a node inside `level` elements, and whether a tag after it starts a new line. -/
def print (breaks : Bool) (level : Nat) : Node → List Char × Bool
  | element content _ [] => (line breaks level (.emptyTag content), true)
  | element content name (child :: children) =>
    let first := child.print true (level + 1)
    let rest := printAll first.2 (level + 1) children
    (line breaks level (.startTag content) ++ first.1 ++ rest.1 ++ line rest.2 level (.endTag name),
      true)
  | single (.text content) => (content, false)
  | single (.cdata content) => (Event.written (.cdata content), false)
  | single event => (line breaks level event, true)

def printAll (breaks : Bool) (level : Nat) : List Node → List Char × Bool
  | [] => ([], breaks)
  | node :: nodes =>
    let first := node.print breaks level
    let rest := printAll first.2 level nodes
    (first.1 ++ rest.1, rest.2)

end

end Node

/-- Does an event stand in a forest? Declarations are written anew, and document types are left
out. -/
def Event.isKept : Event → Bool
  | declaration _ | doctype _ => false
  | _ => true

def isDocument (forest : List Node) : Bool :=
  (forest.filter Node.isElement).length = 1 && !forest.any Node.isText

def collapse : List Event → List Event
  | .startTag content :: .endTag _ :: events => .emptyTag content :: collapse events
  | e :: events => e :: collapse events
  | [] => []

def consText (first : List Char) : List Event → List Event
  | .text second :: later => .text (first ++ second) :: later
  | events => .text first :: events

def joinTexts : List Event → List Event
  | .text first :: events => consText first (joinTexts events)
  | e :: events => e :: joinTexts events
  | [] => []

def normal (events : List Event) : List Event :=
  joinTexts (collapse (events.filter Event.isKept))

example : normal [.startTag ['a'], .doctype ['b'], .endTag ['a']] = [.emptyTag ['a']] := rfl

example : normal [.text ['a'], .doctype ['b'], .text ['c']] = [.text ['a', 'c']] := rfl

namespace Event

def depthAfter (depth : Nat) : Event → Nat
  | startTag _ => depth + 1
  | endTag _ => depth - 1
  | _ => depth

def beginsElement : Event → Bool
  | startTag _ | emptyTag _ => true
  | _ => false

def isInline : Event → Bool
  | text _ | cdata _ => true
  | _ => false

end Event

def openAfter (events : List Event) : Nat :=
  events.foldl Event.depthAfter 0

/-- Outside of all elements there is room for one element, and for no text. -/
def Event.offence? (before : List Event) (e : Event) : Option Diagnostic :=
  if openAfter before ≠ 0 then none
  else if e.isInline then some (notOneElement "Text outside of the root element")
  else if e.beginsElement ∧ before.any beginsElement then
    some (notOneElement "More than one root element")
  else none

def eventOffence? (before : List Event) : List Event → Option Diagnostic
  | [] => none
  | e :: later => (e.offence? before).or (eventOffence? (before ++ [e]) later)

def endOffence? (events : List Event) : Option Diagnostic :=
  if openAfter events ≠ 0 then some (notOneElement "Unclosed element at end of input")
  else if events.any Event.beginsElement then none
  else some (notOneElement "No root element")

/-- A fault of the reader is the last thing that is looked at. -/
def textOffence? (text : List Char) : Option Diagnostic :=
  let scan := EventScan.ofText text
  (eventOffence? [] scan.events).or <|
    match scan.fault with
    | some (fault, rest) => some (fault.diagnostic text rest)
    | none => endOffence? scan.events

end TypedConfig.Markup
