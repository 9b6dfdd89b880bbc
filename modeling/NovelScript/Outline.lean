import NovelScript.Syntax.Document
import NovelScript.Text.Layout

/-!
# Outlines

An outline shows a document as a tree of lines: every node has an icon and a label, and branches
are drawn in front of them.
-/

namespace NovelScript

inductive Outline where
  | node (icon : String) (label : String) (line : Nat) (children : List Outline)
  deriving Repr

/-! ## Icons -/

namespace Expression

def icon : Expression → String
  | .literal _ => "◦"
  | .reference _ => "𝑥"
  | .parenthesized .. => "()"
  | .assignment .. => "⇐"
  | .python _ => "λ"

end Expression

namespace Statement

def icon : Statement → String
  | .define _ => "≔"
  | .defaultValue _ => "≝"
  | .label .. => "§"
  | .jump _ => "↷"
  | .call _ => "↪"
  | .return .. => "↩"
  | .pass _ => "⋯"
  | .pause .. => "⏸"
  | .python .. => "$"

end Statement

namespace Document

def icon (_ : Document) : String := "⧉"

end Document

namespace Parameter

def icon (_ : Parameter) : String := "•"

end Parameter

/-! ## Nodes -/

namespace Outline

def ofExpression (expression : Expression) : Outline :=
  let children := match expression with
    | .parenthesized inner _ => [ofExpression inner]
    | .assignment left _ right _ => [ofExpression left, ofExpression right]
    | .literal _ | .reference _ | .python _ => []
  .node expression.icon expression.label expression.span.start.line children

def ofOption (expression : Option Expression) : List Outline :=
  expression.toList.map ofExpression

def ofPython (code : Option PythonCode) : List Outline :=
  code.toList.map fun code => ofExpression (.python code)

def ofAssignment (assignment : Option Assignment) : List Outline :=
  assignment.toList.map fun assignment => ofExpression assignment.toExpression

def ofParameter (parameter : Parameter) : Outline :=
  .node parameter.icon parameter.name.name parameter.name.span.start.line
    (ofOption parameter.default)

mutual

def ofStatement (statement : Statement) : Outline :=
  let children := match statement with
    | .define binding =>
        ofExpression (.literal binding.priority) :: ofPython binding.index ++
          ofAssignment binding.assignment
    | .defaultValue binding =>
        ofExpression (.literal binding.priority) :: ofAssignment binding.assignment
    | .label head body _ => head.parameters.map ofParameter ++ ofStatements body
    | .jump transfer => ofPython transfer.expression
    | .call transfer => transfer.arguments.map ofExpression ++ ofPython transfer.expression
    | .return value _ => ofOption value
    | .pause duration _ => ofOption duration
    | .pass _ | .python .. => []
  .node statement.icon statement.displayLabel statement.span.start.line children

def ofStatements : List Statement → List Outline
  | [] => []
  | statement :: rest => ofStatement statement :: ofStatements rest

end

/-! ## Lines -/

def labelLimit : Nat := 30

def caption (icon label : String) : String := s!"{icon} {Text.truncate labelLimit label}"

mutual

/-- The lines of a node below branches drawn as `stem`. -/
def lines (lineNumbers : Bool) (stem : String) (isLast : Bool) : Outline → List String
  | .node icon label line children =>
      let number := if lineNumbers then Text.padNumber 2 (line + 1) ++ " " else ""
      let connector := if isLast then "└─ " else "├─ "
      (number ++ stem ++ connector ++ caption icon label) ::
        linesOfAll lineNumbers (stem ++ if isLast then "  " else "│ ") children

def linesOfAll (lineNumbers : Bool) (stem : String) : List Outline → List String
  | [] => []
  | first :: rest =>
      lines lineNumbers stem rest.isEmpty first ++ linesOfAll lineNumbers stem rest

end

end Outline

namespace Document

def outline (document : Document) (lineNumbers : Bool) : String :=
  Text.unlines (s!"{document.icon} {document.label}" ::
    Outline.linesOfAll lineNumbers "" (Outline.ofStatements document.statements))

end Document

end NovelScript
