import NovelScript.Proofs.ScopeTrees
import NovelScript.Scope.Resolution

/-!
# Definitions and uses in a document

Every label opens a scope.  Scopes are numbered in the order in which their labels start, from one
on, behind the global scope.  So the scope of every name that a document defines or uses can be
told from the tree of its statements alone.
-/

namespace NovelScript

structure Definition where
  name : String
  kind : SymbolKind
  span : Span
  scope : Nat
  deriving DecidableEq, Repr

namespace Definition

def slot (definition : Definition) : Slot :=
  ⟨definition.scope, definition.name, definition.kind.isFunction⟩

def symbol (definition : Definition) : Symbol where
  name := definition.name
  kind := definition.kind
  scope := definition.scope
  definition := some definition.span
  references := []

@[simp] theorem symbol_slot (definition : Definition) :
    definition.symbol.slot = definition.slot := rfl

end Definition

namespace Expression

/-- The names that an expression uses; the left side of an assignment is none of them. -/
def usages (scope : Nat) : Expression → List Usage
  | .literal _ => []
  | .reference name => [⟨name.name, .«variable», name.span, scope⟩]
  | .parenthesized inner _ => inner.usages scope
  | .assignment _ _ right _ => right.usages scope
  | .python _ => []

end Expression

/-- What an assignment defines, wherever it stands: a global variable. -/
def Assignment.definitions (assignment : Option Assignment) : List Definition :=
  (assignment.bind target?).toList.map fun target =>
    ⟨target.name, .«variable», target.span, ScopeTree.globalScope⟩

def Assignment.usages (scope : Nat) (assignment : Option Assignment) : List Usage :=
  assignment.toList.flatMap (·.right.usages scope)

/-- The use of the label that a jump or call aims at. -/
def Identifier.usages (scope : Nat) (target : Option Identifier) : List Usage :=
  target.toList.map fun name => ⟨name.name, .function, name.span, scope⟩

/-- The uses in what a parameter defaults to. -/
def Parameter.usages (scope : Nat) (parameter : Parameter) : List Usage :=
  parameter.default.toList.flatMap (·.usages scope)

namespace LabelHead

def nameDefinitions (scope : Nat) (head : LabelHead) : List Definition :=
  head.name.toList.map fun name => ⟨name.name, .function, name.span, scope⟩

def parameterDefinitions (scope : Nat) (head : LabelHead) : List Definition :=
  head.parameters.map fun parameter =>
    ⟨parameter.name.name, .«variable», parameter.name.span, scope⟩

def usages (scope : Nat) (head : LabelHead) : List Usage :=
  head.parameters.flatMap (Parameter.usages scope)

end LabelHead

namespace Statement

mutual

def labelCount : Statement → Nat
  | .label _ body _ => labelCountOfAll body + 1
  | _ => 0

def labelCountOfAll : List Statement → Nat
  | [] => 0
  | statement :: rest => statement.labelCount + labelCountOfAll rest

end

mutual

/-- The scopes around the labels of a statement that stands in `scope`, in the order of the labels,
which are numbered from `next` on. -/
def outerScopes (scope next : Nat) : Statement → List Nat
  | .label _ body _ => scope :: outerScopesOfAll next (next + 1) body
  | _ => []

def outerScopesOfAll (scope next : Nat) : List Statement → List Nat
  | [] => []
  | statement :: rest =>
      statement.outerScopes scope next ++
        outerScopesOfAll scope (next + statement.labelCount) rest

end

mutual

theorem outerScopes_length (scope next : Nat) :
    ∀ statement, (outerScopes scope next statement).length = statement.labelCount
  | .label _ body _ => congrArg (· + 1) (outerScopesOfAll_length next (next + 1) body)
  | .define _ | .defaultValue _ | .jump _ | .call _ | .return .. | .pass _ | .pause ..
  | .python .. => rfl

theorem outerScopesOfAll_length (scope next : Nat) : ∀ statements,
    (outerScopesOfAll scope next statements).length = labelCountOfAll statements
  | [] => rfl
  | statement :: rest => by
      rw [outerScopesOfAll, List.length_append, outerScopes_length, outerScopesOfAll_length,
        labelCountOfAll]

end

mutual

/-- The definitions of a statement that stands in `scope`, with labels numbered from `next` on.  A
label is defined in the scope around it, and its parameters in its own. -/
def definitions (scope next : Nat) : Statement → List Definition
  | .define binding => Assignment.definitions binding.assignment
  | .defaultValue binding => Assignment.definitions binding.assignment
  | .label head body _ =>
      head.nameDefinitions scope ++ head.parameterDefinitions next ++
        definitionsOfAll next (next + 1) body
  | .jump _ | .call _ | .return .. | .pass _ | .pause .. | .python .. => []

def definitionsOfAll (scope next : Nat) : List Statement → List Definition
  | [] => []
  | statement :: rest =>
      statement.definitions scope next ++
        definitionsOfAll scope (next + statement.labelCount) rest

end

mutual

/-- The uses in a statement that stands in `scope`, with labels numbered from `next` on.  What the
parameters of a label default to belongs to the scope around the label. -/
def usages (scope next : Nat) : Statement → List Usage
  | .define binding => Assignment.usages scope binding.assignment
  | .defaultValue binding => Assignment.usages scope binding.assignment
  | .label head body _ => head.usages scope ++ usagesOfAll next (next + 1) body
  | .jump transfer => Identifier.usages scope transfer.target
  | .call transfer =>
      Identifier.usages scope transfer.target ++ transfer.arguments.flatMap (·.usages scope)
  | .return value _ => value.toList.flatMap (·.usages scope)
  | .pause duration _ => duration.toList.flatMap (·.usages scope)
  | .pass _ | .python .. => []

def usagesOfAll (scope next : Nat) : List Statement → List Usage
  | [] => []
  | statement :: rest =>
      statement.usages scope next ++ usagesOfAll scope (next + statement.labelCount) rest

end

end Statement

namespace Document

def outerScopes (document : Document) : List Nat :=
  Statement.outerScopesOfAll ScopeTree.globalScope 1 document.statements

def definitions (document : Document) : List Definition :=
  Statement.definitionsOfAll ScopeTree.globalScope 1 document.statements

def usages (document : Document) : List Usage :=
  Statement.usagesOfAll ScopeTree.globalScope 1 document.statements

end Document

/-! ## Repeated definitions -/

def ResolveError.isDuplicate : ResolveError → Bool
  | duplicateSymbol .. => true
  | unresolvedReference .. => false

namespace Definition

/-- The errors for the definitions of a list whose slot is taken, by one of `earlier` or by one
further ahead in the list.  Each names the first definition of its slot. -/
def duplicatesBehind (earlier : List Definition) : List Definition → List ResolveError
  | [] => []
  | definition :: rest =>
      (earlier.find? (·.slot == definition.slot)).toList.map
          (fun first => .duplicateSymbol definition.name definition.kind definition.span first.span)
        ++ duplicatesBehind (earlier ++ [definition]) rest

def duplicates (definitions : List Definition) : List ResolveError :=
  duplicatesBehind [] definitions

private theorem duplicatesBehind_concat (earlier definitions : List Definition)
    (last : Definition) :
    duplicatesBehind earlier (definitions ++ [last]) =
      duplicatesBehind earlier definitions ++
        duplicatesBehind (earlier ++ definitions) [last] := by
  induction definitions generalizing earlier with
  | nil => simp [duplicatesBehind]
  | cons definition rest ih => simp [duplicatesBehind, ih]

theorem duplicates_concat (definitions : List Definition) (last : Definition) :
    duplicates (definitions ++ [last]) =
      duplicates definitions ++ (definitions.find? (·.slot == last.slot)).toList.map
        fun first => .duplicateSymbol last.name last.kind last.span first.span := by
  rw [duplicates, duplicatesBehind_concat]
  simp [duplicates, duplicatesBehind]

end Definition

end NovelScript
