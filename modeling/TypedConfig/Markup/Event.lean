namespace TypedConfig.Markup

def isBlank (c : Char) : Bool :=
  c = ' ' || c = '\t' || c = '\n' || c = '\r'

inductive Event where
  | startTag (content : List Char)
  | endTag (name : List Char)
  | emptyTag (content : List Char)
  | text (content : List Char)
  | cdata (content : List Char)
  | comment (content : List Char)
  | instruction (content : List Char)
  | declaration (content : List Char)
  | doctype (content : List Char)
deriving DecidableEq

/-- The name in a tag: what comes before the first blank. It may be empty. -/
def tagName (content : List Char) : List Char :=
  content.takeWhile fun c => !isBlank c

def Event.written : Event → List Char
  | startTag content => '<' :: (content ++ ['>'])
  | endTag name => '<' :: '/' :: (name ++ ['>'])
  | emptyTag content => '<' :: (content ++ ['/', '>'])
  | text content => content
  | cdata content => "<![CDATA[".toList ++ content ++ [']', ']', '>']
  | comment content => ['<', '!', '-', '-'] ++ content ++ ['-', '-', '>']
  | instruction content | declaration content => '<' :: '?' :: (content ++ ['?', '>'])
  | doctype content => "<!DOCTYPE ".toList ++ content ++ ['>']

inductive Fault where
  | unknownMarkup
  | unclosedInstruction
  | unclosedComment
  | unclosedDoctype
  | unclosedCdata
  | unclosedTag
  | unnamedDoctype
  | mismatchedEnd (expected found : List Char)
  | unmatchedEnd (found : List Char)
deriving DecidableEq

namespace Fault

def unclosed (construct mark : String) : String :=
  s!"syntax error: {construct} not closed: `{mark}` not found before end of input"

def text : Fault → String
  | unknownMarkup => "syntax error: unknown or missed symbol in markup"
  | unclosedInstruction => unclosed "processing instruction or xml declaration" "?>"
  | unclosedComment => unclosed "comment" "-->"
  | unclosedDoctype => unclosed "DOCTYPE" ">"
  | unclosedCdata => unclosed "CDATA" "]]>"
  | unclosedTag => unclosed "tag" ">"
  | unnamedDoctype =>
    "ill-formed document: `<!DOCTYPE>` declaration does not contain a name of a document type"
  | mismatchedEnd expected found =>
    let expected := String.ofList expected
    let found := String.ofList found
    s!"ill-formed document: expected `</{expected}>`, but `</{found}>` was found"
  | unmatchedEnd found =>
    let found := String.ofList found
    s!"ill-formed document: close tag `</{found}>` does not match any open tag"

end Fault

def cutAt (mark : List Char) : List Char → Option (List Char × List Char)
  | [] => none
  | c :: rest =>
    if mark.isPrefixOf (c :: rest) then some ([], (c :: rest).drop mark.length)
    else (cutAt mark rest).map fun (before, after) => (c :: before, after)

def quoteAfter (quote : Option Char) (c : Char) : Option Char :=
  match quote with
  | none => if c = '\'' ∨ c = '"' then some c else none
  | some q => if c = q then none else some q

/-- Cuts at the first `>` outside quotes, when `quote` is open at the start. -/
def cutTag (quote : Option Char) : List Char → Option (List Char × List Char)
  | [] => none
  | c :: rest =>
    if quote = none ∧ c = '>' then some ([], rest)
    else (cutTag (quoteAfter quote c) rest).map fun (before, after) => (c :: before, after)

/-- Cuts at the `>` that closes more than has been opened, when `depth` times `<` is open at the
start. -/
def cutBalanced (depth : Nat) : List Char → Option (List Char × List Char)
  | [] => none
  | c :: rest =>
    if c = '>' then
      match depth with
      | 0 => some ([], rest)
      | depth + 1 => (cutBalanced depth rest).map fun (before, after) => (c :: before, after)
    else
      (cutBalanced (if c = '<' then depth + 1 else depth) rest).map
        fun (before, after) => (c :: before, after)

theorem eq_of_cutAt {mark text before after : List Char}
    (h : cutAt mark text = some (before, after)) : text = before ++ mark ++ after := by
  induction text generalizing before with
  | nil => cases h
  | cons c rest ih =>
    unfold cutAt at h
    split at h
    · cases h
      rename_i hp
      obtain ⟨tail, ht⟩ := List.isPrefixOf_iff_prefix.1 hp
      simp [← ht]
    · obtain ⟨⟨b, a⟩, hcut, heq⟩ := Option.map_eq_some_iff.1 h
      cases heq
      simp [ih hcut]

theorem eq_of_cutTag {quote : Option Char} {text before after : List Char}
    (h : cutTag quote text = some (before, after)) : text = before ++ '>' :: after := by
  induction text generalizing quote before with
  | nil => cases h
  | cons c rest ih =>
    unfold cutTag at h
    split at h
    · rename_i hc
      cases h
      simp [hc.2]
    · obtain ⟨⟨b, a⟩, hcut, heq⟩ := Option.map_eq_some_iff.1 h
      cases heq
      simp [ih hcut]

theorem eq_of_cutBalanced {depth : Nat} {text before after : List Char}
    (h : cutBalanced depth text = some (before, after)) : text = before ++ '>' :: after := by
  induction text generalizing depth before with
  | nil => cases h
  | cons c rest ih =>
    unfold cutBalanced at h
    split at h
    · rename_i hc
      cases depth with
      | zero => cases h; simp [hc]
      | succ depth =>
        obtain ⟨⟨b, a⟩, hcut, heq⟩ := Option.map_eq_some_iff.1 h
        cases heq
        simp [ih hcut]
    · obtain ⟨⟨b, a⟩, hcut, heq⟩ := Option.map_eq_some_iff.1 h
      cases heq
      simp [ih hcut]

end TypedConfig.Markup
