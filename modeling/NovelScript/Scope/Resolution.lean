import NovelScript.Scope.Tree
import NovelScript.Syntax.Walk

/-!
# Resolution

A walk over the document binds every definition in the scope it belongs to and notes every use with
the scope it stands in.  Uses are looked up only then, in the finished tree, so that a jump may aim
at a label further down.

Definitions and defaults bind variables of the global scope.  A label binds a function in the scope
around it and opens one of its own, in which its parameters are variables.  The targets of jumps and
calls are uses of functions, names in expressions are uses of variables.
-/

namespace NovelScript

inductive ResolveError where
  | duplicateSymbol (name : String) (kind : SymbolKind) (span first : Span)
  | unresolvedReference (name : String) (kind : SymbolKind) (span : Span)
  deriving DecidableEq, Repr

namespace ResolveError

def span : ResolveError → Span
  | duplicateSymbol _ _ span _ => span
  | unresolvedReference _ _ span => span

def name : ResolveError → String
  | duplicateSymbol name _ _ _ => name
  | unresolvedReference name _ _ => name

def message : ResolveError → String
  | duplicateSymbol name kind _ first =>
      s!"{kind.text} '{name}' is already defined at {first.start.displayOneBased}"
  | unresolvedReference name kind _ => s!"unresolved {kind.text} '{name}'"

end ResolveError

structure Usage where
  name : String
  kind : SymbolKind
  span : Span
  scope : Nat
  deriving DecidableEq, Repr

namespace Usage

def root (name : String) : String := String.ofList (name.toList.takeWhile (· != '.'))

/-- The symbol that a use means: the one of its full name, or for a dotted variable that is bound
nowhere the one of its first segment. -/
def lookup? (tree : ScopeTree) (usage : Usage) : Option Nat :=
  match tree.lookup? usage.scope usage.name usage.kind with
  | some symbol => some symbol
  | none =>
      if usage.kind = .«variable» ∧ root usage.name ≠ usage.name then
        tree.lookup? usage.scope (root usage.name) usage.kind
      else none

end Usage

structure Findings where
  tree : ScopeTree
  /-- The scopes of the labels around the walk, innermost first. -/
  around : List Nat := []
  usages : List Usage := []
  errors : List ResolveError := []
  deriving DecidableEq, Repr

namespace Findings

def scope (findings : Findings) : Nat := findings.around.headD ScopeTree.globalScope

/-- Bind a definition.  A builtin of that name becomes the definition's; any other name that is
taken is an error. -/
def define (findings : Findings) (scope : Nat) (name : String) (kind : SymbolKind) (span : Span) :
    Findings :=
  match findings.tree.bind scope name kind (some span) with
  | (.bound _, tree) => { findings with tree }
  | (.taken symbol, tree) =>
      match tree.claimBuiltin symbol span with
      | (true, tree) => { findings with tree }
      | (false, tree) =>
          let first := ((tree.symbols[symbol]?).bind Symbol.definition).getD span
          { findings with
            tree
            errors := findings.errors ++ [.duplicateSymbol name kind span first] }

def defineTarget (findings : Findings) (assignment : Option Assignment) : Findings :=
  match assignment.bind Assignment.target? with
  | some target =>
      findings.define ScopeTree.globalScope target.name .«variable» target.span
  | none => findings

def noteUsage (findings : Findings) (name : String) (kind : SymbolKind) (span : Span) : Findings :=
  { findings with usages := findings.usages ++ [⟨name, kind, span, findings.scope⟩] }

def noteTarget (findings : Findings) (target : Option Identifier) : Findings :=
  match target with
  | some target => findings.noteUsage target.name .function target.span
  | none => findings

/-- Bind a label in the scope around it and enter its own. -/
def enterLabel (findings : Findings) (head : LabelHead) (span : Span) : Findings :=
  let outside := findings.scope
  let named := match head.name with
    | some name => findings.define outside name.name .function name.span
    | none => findings
  let (scope, tree) := named.tree.openScope outside span
  head.parameters.foldl
    (fun inside parameter => inside.define scope parameter.name.name .«variable» parameter.name.span)
    { named with tree, around := scope :: named.around }

def meet (findings : Findings) : Encounter → Findings
  | .define define => findings.defineTarget define.assignment
  | .defaultValue value => findings.defineTarget value.assignment
  | .enterLabel head span => findings.enterLabel head span
  | .leaveLabel _ => { findings with around := findings.around.tail }
  | .jump jump => findings.noteTarget jump.target
  | .call call => findings.noteTarget call.target
  | .expression _ => findings
  | .reference reference => findings.noteUsage reference.name .«variable» reference.span

end Findings

structure Resolution where
  tree : ScopeTree
  errors : List ResolveError
  deriving DecidableEq, Repr

namespace Resolution

/-- The tree in which the builtins are bound and nothing else; repeated names do no harm. -/
def initialTree (span : Span) (builtins : List String) : ScopeTree :=
  builtins.foldl
    (fun tree name => (tree.bind ScopeTree.globalScope name .«variable» none).2) (.ofSpan span)

def findings (document : Document) (builtins : List String) : Findings :=
  document.walk.foldl Findings.meet { tree := initialTree document.span builtins }

/-- Record a use at its symbol, or as an error if it has none. -/
def settle (reportUnresolved : Bool) (resolution : Resolution) (usage : Usage) : Resolution :=
  match usage.lookup? resolution.tree with
  | some symbol => { resolution with tree := resolution.tree.addReference symbol usage.span }
  | none =>
      if reportUnresolved then
        { resolution with
          errors := resolution.errors ++
            [.unresolvedReference usage.name usage.kind usage.span] }
      else resolution

def ofDocument (document : Document) (builtins : List String) (reportUnresolved : Bool) :
    Resolution :=
  let found := findings document builtins
  let usages := found.usages.mergeSort fun left right =>
    left.span.start.precedes right.span.start
  let settled := usages.foldl (settle reportUnresolved) ⟨found.tree, found.errors⟩
  { settled with
    errors := settled.errors.mergeSort fun left right =>
      left.span.start.precedes right.span.start }

end Resolution

end NovelScript
