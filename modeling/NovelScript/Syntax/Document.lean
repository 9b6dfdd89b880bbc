import NovelScript.Syntax.Statement

/-!
# Documents

A document is the tree of a whole script.  Its nodes are listed in preorder, each with its depth,
and the innermost statement at a position is found by going down through the statements that
contain it.
-/

namespace NovelScript

namespace Statement

mutual

/-- The statement and all below it, in preorder, with the number of labels around each. -/
def nodes (depth : Nat) : Statement → List (Nat × Statement)
  | .label head body span => (depth, .label head body span) :: nodesOfAll (depth + 1) body
  | statement => [(depth, statement)]

def nodesOfAll (depth : Nat) : List Statement → List (Nat × Statement)
  | [] => []
  | statement :: rest => nodes depth statement ++ nodesOfAll depth rest

end

theorem mem_nodesOfAll {depth : Nat} {node : Nat × Statement} {statements : List Statement} :
    node ∈ nodesOfAll depth statements ↔
      ∃ statement ∈ statements, node ∈ statement.nodes depth := by
  induction statements with
  | nil => simp [nodesOfAll]
  | cons statement rest ih => simp [nodesOfAll, ih]

mutual

/-- The deepest of nested statements that contain a position, the first of each level winning. -/
def innermost? (position : Position) : Statement → Option Statement
  | .label head body span =>
      if span.contains position then
        some ((innermostOfAll? position body).getD (.label head body span))
      else none
  | statement => if statement.span.contains position then some statement else none

def innermostOfAll? (position : Position) : List Statement → Option Statement
  | [] => none
  | statement :: rest =>
      match innermost? position statement with
      | some found => some found
      | none => innermostOfAll? position rest

end

end Statement

structure Document where
  statements : List Statement
  span : Span
  deriving Repr

namespace Document

def nodeType (_ : Document) : String := "Document"

def label (document : Document) : String := s!"{document.statements.length} statements"

def nodes (document : Document) : List (Nat × Statement) :=
  Statement.nodesOfAll 0 document.statements

def statementCount (document : Document) : Nat := document.nodes.length

def statementAt? (document : Document) (position : Position) : Option Statement :=
  Statement.innermostOfAll? position document.statements

end Document

end NovelScript
