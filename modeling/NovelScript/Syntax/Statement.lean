import NovelScript.Syntax.Expression

/-!
# Statements

The statements that the front end models.  Parts that could not be read are absent; a computed
target or a screen leaves the target of a jump or call absent too.  Only labels hold statements.
-/

namespace NovelScript

structure Parameter where
  name : Identifier
  default : Option Expression
  deriving DecidableEq, Repr

structure Define where
  /-- The init priority; a zero of no extent stands behind the keyword if none is written. -/
  priority : Literal
  assignment : Option Assignment
  /-- The subscript of the assigned name. -/
  index : Option PythonCode
  span : Span
  deriving DecidableEq, Repr

structure DefaultValue where
  priority : Literal
  assignment : Option Assignment
  span : Span
  deriving DecidableEq, Repr

structure Jump where
  target : Option Identifier
  expression : Option PythonCode
  span : Span
  deriving DecidableEq, Repr

structure Call where
  target : Option Identifier
  arguments : List Expression
  expression : Option PythonCode
  screen : Option Identifier
  returnSite : Option Identifier
  span : Span
  deriving DecidableEq, Repr

structure LabelHead where
  name : Option Identifier
  parameters : List Parameter
  deriving DecidableEq, Repr

inductive Statement where
  | define (define : Define)
  | defaultValue (value : DefaultValue)
  | label (head : LabelHead) (body : List Statement) (span : Span)
  | jump (jump : Jump)
  | call (call : Call)
  | «return» (value : Option Expression) (span : Span)
  | pass (span : Span)
  | pause (duration : Option Expression) (span : Span)
  | python (code : Option PythonCode) (span : Span)
  deriving Repr

/-! ## Labels of nodes -/

def targetLabel (target : Option Identifier) : String :=
  match target with
  | some identifier => identifier.name
  | none => "<missing>"

def bindingLabel (priority : Literal) (assignment : Option Assignment)
    (index : Option PythonCode) : String :=
  let subscript := match index with
    | some code => s!"[{code.source}]"
    | none => ""
  match assignment.bind Assignment.target? with
  | some target => s!"{target.name}{subscript} (priority {priority.text})"
  | none => s!"<incomplete> (priority {priority.text})"

namespace Define

def label (define : Define) : String :=
  bindingLabel define.priority define.assignment define.index

end Define

namespace DefaultValue

def label (value : DefaultValue) : String := bindingLabel value.priority value.assignment none

end DefaultValue

namespace LabelHead

def label (head : LabelHead) : String :=
  if head.parameters.isEmpty then targetLabel head.name
  else
    let names := ", ".intercalate (head.parameters.map (·.name.name))
    s!"{targetLabel head.name}({names})"

end LabelHead

namespace Jump

def label (jump : Jump) : String :=
  match jump.expression with
  | some code => s!"expression {code.source}"
  | none => targetLabel jump.target

end Jump

namespace Call

def callee (call : Call) : String :=
  match call.expression, call.screen with
  | some code, _ => s!"expression {code.source}"
  | none, some screen => s!"screen {screen.name}"
  | none, none => targetLabel call.target

def label (call : Call) : String :=
  match call.returnSite with
  | some site => s!"{call.callee} from {site.name}"
  | none => call.callee

end Call

namespace Statement

def nodeType : Statement → String
  | .define _ => "Define"
  | .defaultValue _ => "Default"
  | .label .. => "Label"
  | .jump _ => "Jump"
  | .call _ => "Call"
  | .return .. => "Return"
  | .pass _ => "Pass"
  | .pause .. => "Pause"
  | .python .. => "Python"

def displayLabel : Statement → String
  | .define binding => binding.label
  | .defaultValue binding => binding.label
  | .label head _ _ => head.label
  | .jump transfer => transfer.label
  | .call transfer => transfer.label
  | .return .. => ""
  | .pass _ => ""
  | .pause .. => ""
  | .python code _ => (code.map PythonCode.label).getD ""

def span : Statement → Span
  | .define binding => binding.span
  | .defaultValue binding => binding.span
  | .label _ _ span => span
  | .jump transfer => transfer.span
  | .call transfer => transfer.span
  | .return _ span => span
  | .pass span => span
  | .pause _ span => span
  | .python _ span => span

/-- The statements directly inside; only labels have any. -/
def children : Statement → List Statement
  | .label _ body _ => body
  | _ => []

def isLabel : Statement → Bool
  | .label .. => true
  | _ => false

end Statement

end NovelScript
