import TypedConfig.ConstantTable
import TypedConfig.Entry.Markup
import TypedConfig.Json
import TypedConfig.Markup.Layout
import TypedConfig.Session

namespace TypedConfig

inductive Stage where
  | parsing
  | resolving
  | emitting
  | done
  | failed (category : Category)
deriving DecidableEq

def Stage.name : Stage → String
  | parsing => "parsing"
  | resolving => "resolving"
  | emitting => "emitting"
  | done => "done"
  | failed category => s!"failed ({category.name})"

def entryOf (source : String) (limit : Nat) : Except Diagnostic Entry := do
  let document ← Document.parse source limit
  return (← document.resolve limit).2

def compile (source : String) (limit : Nat) : Except Diagnostic String := do
  (← entryOf source limit).markup

def compileJson (source : String) (limit : Nat) : Except Diagnostic String := do
  (← entryOf source limit).exportJson

def compilePretty (source : String) : Except Diagnostic String := do
  Markup.reindent (← compile source Session.defaultLimit)

end TypedConfig
