import NovelScript.Span
import NovelScript.Text.Quoted
import NovelScript.Token.Kind

/-!
# Expressions

The small expressions of the script grammar itself, and python kept as raw text.
-/

namespace NovelScript

/-- A name where one is bound or aimed at. -/
structure Identifier where
  name : String
  span : Span
  deriving DecidableEq, Repr

structure Literal where
  kind : LiteralKind
  text : String
  span : Span
  deriving DecidableEq, Repr

/-- A use of a name, dotted or not. -/
structure Reference where
  name : String
  span : Span
  deriving DecidableEq, Repr

structure PythonCode where
  source : String
  /-- False if a bracket or string was left open at the end of the script. -/
  terminated : Bool
  span : Span
  deriving DecidableEq, Repr

inductive Expression where
  | literal (literal : Literal)
  | reference (reference : Reference)
  | parenthesized (inner : Expression) (span : Span)
  | assignment (left : Expression) (operator : Operator) (right : Expression) (span : Span)
  | python (code : PythonCode)
  deriving DecidableEq, Repr

structure Assignment where
  left : Expression
  operator : Operator
  right : Expression
  span : Span
  deriving DecidableEq, Repr

namespace Literal

def label (literal : Literal) : String := s!"{literal.kind.text} {literal.text}"

end Literal

namespace PythonCode

def label (code : PythonCode) : String := Text.quote code.source

end PythonCode

namespace Expression

def nodeType : Expression → String
  | .literal _ => "Literal"
  | .reference _ => "Variable"
  | .parenthesized .. => "Parenthesized"
  | .assignment .. => "AssignmentOperation"
  | .python _ => "PythonExpression"

def label : Expression → String
  | .literal value => value.label
  | .reference name => name.name
  | .parenthesized .. => "( )"
  | .assignment _ operator _ _ => operator.text
  | .python code => code.label

def span : Expression → Span
  | .literal value => value.span
  | .reference name => name.span
  | .parenthesized _ span => span
  | .assignment _ _ _ span => span
  | .python code => code.span

def reference? : Expression → Option Reference
  | .reference name => some name
  | _ => none

end Expression

namespace Assignment

/-- The assigned name, if the left side is one. -/
def target? (assignment : Assignment) : Option Reference := assignment.left.reference?

def toExpression (assignment : Assignment) : Expression :=
  .assignment assignment.left assignment.operator assignment.right assignment.span

end Assignment

end NovelScript
