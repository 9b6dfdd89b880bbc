import NovelScript.Span

/-!
# Scope trees

Scopes and symbols live in two arenas and refer to each other by index.  A scope maps names to
symbols in two namespaces, one for functions and one for everything else, and has at most one symbol
per name in each.  Names are looked up from a scope outwards.
-/

namespace NovelScript

inductive SymbolKind where
  | «variable»
  | function
  | «class»
  deriving DecidableEq, Repr

namespace SymbolKind

def all : List SymbolKind := [.«variable», .function, .«class»]

def text : SymbolKind → String
  | «variable» => "variable"
  | function => "function"
  | «class» => "class"

def name (kind : SymbolKind) : String := kind.text.capitalize

/-- Functions have a namespace of their own. -/
def isFunction : SymbolKind → Bool
  | function => true
  | _ => false

end SymbolKind

structure Symbol where
  name : String
  kind : SymbolKind
  scope : Nat
  /-- Absent for builtins. -/
  definition : Option Span
  /-- Where the symbol is used, in source order. -/
  references : List Span
  deriving DecidableEq, Repr

namespace Symbol

def isBuiltin (symbol : Symbol) : Bool := symbol.definition.isNone

def occurrences (symbol : Symbol) : List Span := symbol.definition.toList ++ symbol.references

def touches (symbol : Symbol) (position : Position) : Bool :=
  symbol.occurrences.any (·.contains position)

end Symbol

structure Scope where
  parent : Option Nat
  span : Span
  /-- Names of all but functions, with the indices of their symbols. -/
  variableNames : List (String × Nat) := []
  functionNames : List (String × Nat) := []
  deriving DecidableEq, Repr

namespace Scope

def bindings (scope : Scope) (kind : SymbolKind) : List (String × Nat) :=
  if kind.isFunction then scope.functionNames else scope.variableNames

def get? (scope : Scope) (name : String) (kind : SymbolKind) : Option Nat :=
  (scope.bindings kind).lookup name

def insert (scope : Scope) (name : String) (kind : SymbolKind) (symbol : Nat) : Scope :=
  if kind.isFunction then { scope with functionNames := scope.functionNames ++ [(name, symbol)] }
  else { scope with variableNames := scope.variableNames ++ [(name, symbol)] }

end Scope

structure ScopeTree where
  /-- The scope at index zero is the global one. -/
  scopes : List Scope
  symbols : List Symbol
  deriving DecidableEq, Repr

namespace ScopeTree

inductive Binding where
  | bound (symbol : Nat)
  /-- The name was taken already, by this symbol. -/
  | taken (symbol : Nat)
  deriving DecidableEq, Repr

def ofSpan (span : Span) : ScopeTree := ⟨[{ parent := none, span }], []⟩

def globalScope : Nat := 0

def openScope (tree : ScopeTree) (parent : Nat) (span : Span) : Nat × ScopeTree :=
  (tree.scopes.length, { tree with scopes := tree.scopes ++ [{ parent := some parent, span }] })

def get? (tree : ScopeTree) (scope : Nat) (name : String) (kind : SymbolKind) : Option Nat :=
  (tree.scopes[scope]?).bind fun found => found.get? name kind

/-- Bind a name in a scope, unless it is bound there already.  In a scope that does not exist every
name counts as taken by the symbol that would come next. -/
def bind (tree : ScopeTree) (scope : Nat) (name : String) (kind : SymbolKind)
    (definition : Option Span) : Binding × ScopeTree :=
  match tree.scopes[scope]? with
  | none => (.taken tree.symbols.length, tree)
  | some target =>
      match target.get? name kind with
      | some symbol => (.taken symbol, tree)
      | none =>
          let symbol := tree.symbols.length
          (.bound symbol,
            ⟨tree.scopes.set scope (target.insert name kind symbol),
              tree.symbols ++ [⟨name, kind, scope, definition, []⟩]⟩)

/-- Give a builtin its first definition in the document; false for any other symbol. -/
def claimBuiltin (tree : ScopeTree) (symbol : Nat) (definition : Span) : Bool × ScopeTree :=
  match tree.symbols[symbol]? with
  | some found =>
      if found.isBuiltin then
        (true,
          { tree with
            symbols := tree.symbols.set symbol { found with definition := some definition } })
      else (false, tree)
  | none => (false, tree)

def addReference (tree : ScopeTree) (symbol : Nat) (span : Span) : ScopeTree :=
  { tree with
    symbols := tree.symbols.modify symbol fun found =>
      { found with references := found.references ++ [span] } }

/-- Look a name up in a scope and then in at most `steps` further ones along the parents. -/
def lookupWithin (tree : ScopeTree) (name : String) (kind : SymbolKind) :
    Nat → Nat → Option Nat
  | steps, scope =>
      match tree.scopes[scope]? with
      | none => none
      | some found =>
          match found.get? name kind with
          | some symbol => some symbol
          | none =>
              match steps, found.parent with
              | steps + 1, some parent => lookupWithin tree name kind steps parent
              | _, _ => none

/-- Look a name up from a scope outwards.  A way outwards that comes past no scope twice has fewer
steps than there are scopes. -/
def lookup? (tree : ScopeTree) (scope : Nat) (name : String) (kind : SymbolKind) : Option Nat :=
  lookupWithin tree name kind tree.scopes.length scope

def symbolAt? (tree : ScopeTree) (position : Position) : Option Symbol :=
  tree.symbols.find? (·.touches position)

/-- The one of two scopes that starts later, and the candidate if they start together. -/
def later (best? : Option (Scope × Nat)) (candidate : Scope × Nat) : Option (Scope × Nat) :=
  match best? with
  | some best =>
      if best.1.span.start.compare candidate.1.span.start = .gt then some best else some candidate
  | none => some candidate

/-- The scope that starts last among those that contain `position`; the later one of two that start
together. -/
def scopeAt (tree : ScopeTree) (position : Position) : Nat :=
  let inside := tree.scopes.zipIdx.filter fun (scope, _) => scope.span.contains position
  match inside.foldl later none with
  | some (_, index) => index
  | none => globalScope

end ScopeTree

end NovelScript
