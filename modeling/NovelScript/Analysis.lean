import NovelScript.Diagnostic
import NovelScript.Grammar.Block
import NovelScript.LineMap

/-!
# Analyses

An analysis holds everything the front end finds out about one script, and answers what an editor
asks about a position.
-/

namespace NovelScript

/-- The names that every script may use without defining them. -/
def defaultBuiltins : List String :=
  ["renpy", "config", "persistent", "store", "preferences", "gui", "build", "im", "ui",
    "achievement", "updater", "director", "None", "Character", "Transform", "Dissolve", "Fade",
    "Solid", "Text"]

structure AnalysisOptions where
  builtins : List String := defaultBuiltins
  reportUnresolved : Bool := true
  deriving DecidableEq, Repr

structure Analysis where
  tokens : TokenStream
  document : Document
  lexErrors : List LexError
  parseErrors : List ParseError
  symbols : ScopeTree
  resolveErrors : List ResolveError
  lines : LineMap
  deriving Repr

namespace Analysis

def ofText (source : List Char) (options : AnalysisOptions) : Analysis :=
  let tokens := Token.ofText source
  let (document, parseErrors) := Document.ofTokens source tokens
  let resolution :=
    Resolution.ofDocument document options.builtins options.reportUnresolved
  { tokens
    document
    lexErrors := TokenStream.lexErrors tokens
    parseErrors
    symbols := resolution.tree
    resolveErrors := resolution.errors
    lines := .ofText source }

def diagnostics (analysis : Analysis) : List Diagnostic :=
  Diagnostic.collect analysis.lexErrors analysis.parseErrors analysis.resolveErrors

def hasErrors (analysis : Analysis) : Bool := analysis.diagnostics.any Diagnostic.isError

/-! ## Questions about a position -/

/-- The position of a zero-based line and column. -/
def positionOf? (analysis : Analysis) (line column : Nat) : Option Position :=
  analysis.lines.positionOf? line column

def tokenAt? (analysis : Analysis) (position : Position) : Option Token :=
  TokenStream.tokenAt? analysis.tokens position

def symbolAt? (analysis : Analysis) (position : Position) : Option Symbol :=
  analysis.symbols.symbolAt? position

def definitionAt? (analysis : Analysis) (position : Position) : Option Span :=
  (analysis.symbolAt? position).bind Symbol.definition

/-- The uses of the symbol at `position`, behind its definition if that is asked for. -/
def referencesAt (analysis : Analysis) (position : Position) (withDefinition : Bool) : List Span :=
  match analysis.symbolAt? position with
  | none => []
  | some symbol => if withDefinition then symbol.occurrences else symbol.references

end Analysis

end NovelScript
