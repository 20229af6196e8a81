import TypedConfig.Diagnostic
import TypedConfig.Markup.Reader

namespace TypedConfig.Markup

def notOneElement (message : String) : Diagnostic :=
  ⟨.markup message, some "The input must hold exactly one well-formed root element", some 504⟩

/-- What is remembered between events: the content of a start tag that is held back, how many
elements are open, whether there has been a root, and whether the next tag starts a line. -/
structure Layout where
  held : Option (List Char)
  depth : Nat
  rooted : Bool
  breaks : Bool
deriving DecidableEq

namespace Layout

def start : Layout := ⟨none, 0, false, false⟩

def tag (s : Layout) (level : Nat) (e : Event) : List Char × Layout :=
  let indent := if s.breaks then '\n' :: List.replicate level '\t' else []
  (indent ++ e.written, { s with breaks := true })

def inline (s : Layout) (e : Event) : List Char × Layout :=
  (e.written, { s with breaks := false })

def release (s : Layout) : List Char × Layout :=
  match s.held with
  | none => ([], s)
  | some content => { s with held := none }.tag (s.depth - 1) (.startTag content)

def admitElement (s : Layout) : Except Diagnostic Layout :=
  if s.depth = 0 ∧ s.rooted = true then .error (notOneElement "More than one root element")
  else .ok { s with rooted := true }

def admitText (s : Layout) : Except Diagnostic Unit :=
  if s.depth = 0 then .error (notOneElement "Text outside of the root element") else .ok ()

def step (s : Layout) (e : Event) : Except Diagnostic (List Char × Layout) :=
  match e with
  | .startTag content => do
    let (before, s) := s.release
    let s ← s.admitElement
    return (before, { s with held := some content, depth := s.depth + 1 })
  | .endTag name =>
    let level := s.depth - 1
    let s := { s with depth := level }
    match s.held with
    | some content => return { s with held := none }.tag level (.emptyTag content)
    | none => return s.tag level (.endTag name)
  | .emptyTag content => do
    let (before, s) := s.release
    let s ← s.admitElement
    let (tag, s) := s.tag s.depth (.emptyTag content)
    return (before ++ tag, s)
  | .text _ | .cdata _ => do
    s.admitText
    let (before, s) := s.release
    let (content, s) := s.inline e
    return (before ++ content, s)
  | .comment _ | .instruction _ =>
    let (before, s) := s.release
    let (construct, s) := s.tag s.depth e
    return (before ++ construct, s)
  | .declaration _ | .doctype _ => return ([], s)

def print (s : Layout) : List Event → Except Diagnostic (List Char × Layout)
  | [] => return ([], s)
  | e :: events => do
    let (first, s) ← s.step e
    let (rest, s) ← s.print events
    return (first ++ rest, s)

def finish (s : Layout) : Except Diagnostic Unit :=
  if s.depth ≠ 0 then .error (notOneElement "Unclosed element at end of input")
  else if s.rooted = false then .error (notOneElement "No root element")
  else .ok ()

end Layout

def declarationLine : List Char := "<?xml version=\"1.0\" ?>\n".toList

def byteSize (text : List Char) : Nat :=
  text.foldr (fun c size => c.utf8Size + size) 0

def Fault.diagnostic (text rest : List Char) (fault : Fault) : Diagnostic :=
  let offset := byteSize (withoutMark text) - byteSize rest
  ⟨.markup s!"at byte {offset}: {fault.text}", none, some 503⟩

/-- Lays out a text. What is wrong with its elements is found before a fault that comes later. -/
def reindentText (text : List Char) : Except Diagnostic (List Char) := do
  let scan := EventScan.ofText text
  let (body, s) ← Layout.start.print scan.events
  match scan.fault with
  | some (fault, rest) => .error (fault.diagnostic text rest)
  | none =>
    s.finish
    return declarationLine ++ body ++ ['\n']

def reindent (source : String) : Except Diagnostic String :=
  (reindentText source.toList).map String.ofList

end TypedConfig.Markup
