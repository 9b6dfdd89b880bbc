import Mathlib.Data.List.Forall2
import NovelScript.Grammar.Error
import NovelScript.Syntax.Walk

/-!
# Corresponding scripts

Two scripts may say the same at other places and with other texts in their literals and their
python.  A correspondence says which places and which texts count as the same; tokens, syntax trees
and errors correspond if they have the same shape and the same names.
-/

namespace NovelScript

/-- Which positions and which texts of two scripts stand for each other.  Columns and the order of
positions are the same on both sides. -/
structure Correspondence where
  position : Position → Position → Prop
  text : String → String → Prop
  column {first second : Position} : position first second → first.column = second.column
  compare {first second later later' : Position} : position first second →
    position later later' → first.compare later = second.compare later'
  zero : text "0" "0"

namespace Correspondence

variable (matching : Correspondence)

/-! ## Tokens and errors -/

structure Spans (first second : Span) : Prop where
  start : matching.position first.start second.start
  stop : matching.position first.stop second.stop

structure Tokens (first second : Token) : Prop where
  kind : first.kind = second.kind
  wrapped : first.wrapped = second.wrapped
  span : matching.Spans first.span second.span

structure ParseErrors (first second : ParseError) : Prop where
  problem : first.problem = second.problem
  current : Option.Rel matching.Tokens first.current second.current
  next : Option.Rel matching.Tokens first.next second.next
  expected : first.expected = second.expected

/-! ## Expressions -/

structure Identifiers (first second : Identifier) : Prop where
  name : first.name = second.name
  span : matching.Spans first.span second.span

structure Literals (first second : Literal) : Prop where
  kind : first.kind = second.kind
  text : matching.text first.text second.text
  span : matching.Spans first.span second.span

structure References (first second : Reference) : Prop where
  name : first.name = second.name
  span : matching.Spans first.span second.span

structure Codes (first second : PythonCode) : Prop where
  source : matching.text first.source second.source
  terminated : first.terminated = second.terminated
  span : matching.Spans first.span second.span

inductive Expressions : Expression → Expression → Prop
  | literal {first second : Literal} (same : matching.Literals first second) :
      Expressions (.literal first) (.literal second)
  | reference {first second : Reference} (same : matching.References first second) :
      Expressions (.reference first) (.reference second)
  | parenthesized {first second : Expression} {span span' : Span} (inner : Expressions first second)
      (spans : matching.Spans span span') :
      Expressions (.parenthesized first span) (.parenthesized second span')
  | assignment {left left' right right' : Expression} {span span' : Span} (operator : Operator)
      (lefts : Expressions left left') (rights : Expressions right right')
      (spans : matching.Spans span span') :
      Expressions (.assignment left operator right span) (.assignment left' operator right' span')
  | python {first second : PythonCode} (same : matching.Codes first second) :
      Expressions (.python first) (.python second)

structure Assignments (first second : Assignment) : Prop where
  left : matching.Expressions first.left second.left
  operator : first.operator = second.operator
  right : matching.Expressions first.right second.right
  span : matching.Spans first.span second.span

/-! ## Statements -/

structure Parameters (first second : Parameter) : Prop where
  name : matching.Identifiers first.name second.name
  default : Option.Rel matching.Expressions first.default second.default

structure Defines (first second : Define) : Prop where
  priority : matching.Literals first.priority second.priority
  assignment : Option.Rel matching.Assignments first.assignment second.assignment
  index : Option.Rel matching.Codes first.index second.index
  span : matching.Spans first.span second.span

structure DefaultValues (first second : DefaultValue) : Prop where
  priority : matching.Literals first.priority second.priority
  assignment : Option.Rel matching.Assignments first.assignment second.assignment
  span : matching.Spans first.span second.span

structure Jumps (first second : Jump) : Prop where
  target : Option.Rel matching.Identifiers first.target second.target
  expression : Option.Rel matching.Codes first.expression second.expression
  span : matching.Spans first.span second.span

structure Calls (first second : Call) : Prop where
  target : Option.Rel matching.Identifiers first.target second.target
  arguments : List.Forall₂ matching.Expressions first.arguments second.arguments
  expression : Option.Rel matching.Codes first.expression second.expression
  screen : Option.Rel matching.Identifiers first.screen second.screen
  returnSite : Option.Rel matching.Identifiers first.returnSite second.returnSite
  span : matching.Spans first.span second.span

structure LabelHeads (first second : LabelHead) : Prop where
  name : Option.Rel matching.Identifiers first.name second.name
  parameters : List.Forall₂ matching.Parameters first.parameters second.parameters

inductive Statements : Statement → Statement → Prop
  | define {first second : Define} (same : matching.Defines first second) :
      Statements (.define first) (.define second)
  | defaultValue {first second : DefaultValue} (same : matching.DefaultValues first second) :
      Statements (.defaultValue first) (.defaultValue second)
  | label {head head' : LabelHead} {body body' : List Statement} {span span' : Span}
      (heads : matching.LabelHeads head head') (bodies : List.Forall₂ Statements body body')
      (spans : matching.Spans span span') :
      Statements (.label head body span) (.label head' body' span')
  | jump {first second : Jump} (same : matching.Jumps first second) :
      Statements (.jump first) (.jump second)
  | call {first second : Call} (same : matching.Calls first second) :
      Statements (.call first) (.call second)
  | «return» {value value' : Option Expression} {span span' : Span}
      (values : Option.Rel matching.Expressions value value')
      (spans : matching.Spans span span') :
      Statements (.return value span) (.return value' span')
  | pass {span span' : Span} (spans : matching.Spans span span') :
      Statements (.pass span) (.pass span')
  | pause {duration duration' : Option Expression} {span span' : Span}
      (durations : Option.Rel matching.Expressions duration duration')
      (spans : matching.Spans span span') :
      Statements (.pause duration span) (.pause duration' span')
  | python {code code' : Option PythonCode} {span span' : Span}
      (codes : Option.Rel matching.Codes code code') (spans : matching.Spans span span') :
      Statements (.python code span) (.python code' span')

structure Documents (first second : Document) : Prop where
  statements : List.Forall₂ matching.Statements first.statements second.statements
  span : matching.Spans first.span second.span

/-! ## Walks -/

inductive Encounters : Encounter → Encounter → Prop
  | define {first second : Define} (same : matching.Defines first second) :
      Encounters (.define first) (.define second)
  | defaultValue {first second : DefaultValue} (same : matching.DefaultValues first second) :
      Encounters (.defaultValue first) (.defaultValue second)
  | enterLabel {head head' : LabelHead} {span span' : Span}
      (heads : matching.LabelHeads head head') (spans : matching.Spans span span') :
      Encounters (.enterLabel head span) (.enterLabel head' span')
  | leaveLabel {head head' : LabelHead} (heads : matching.LabelHeads head head') :
      Encounters (.leaveLabel head) (.leaveLabel head')
  | jump {first second : Jump} (same : matching.Jumps first second) :
      Encounters (.jump first) (.jump second)
  | call {first second : Call} (same : matching.Calls first second) :
      Encounters (.call first) (.call second)
  | expression {first second : Expression} (same : matching.Expressions first second) :
      Encounters (.expression first) (.expression second)
  | reference {first second : Reference} (same : matching.References first second) :
      Encounters (.reference first) (.reference second)

variable {matching}

/-! ## Parts of what corresponds -/

theorem Expressions.span {first second : Expression} (same : matching.Expressions first second) :
    matching.Spans first.span second.span := by
  cases same with
  | literal same | reference same | python same => exact same.span
  | parenthesized _ spans | assignment _ _ _ spans => exact spans

theorem Expressions.reference? {first second : Expression}
    (same : matching.Expressions first second) :
    Option.Rel matching.References first.reference? second.reference? := by
  cases same with
  | reference same => exact .some same
  | literal | parenthesized | assignment | python => exact .none

theorem Expressions.walk {first second : Expression} (same : matching.Expressions first second) :
    List.Forall₂ matching.Encounters first.walk second.walk := by
  induction same with
  | literal same => exact .cons (.expression (.literal same)) .nil
  | reference same => exact .cons (.expression (.reference same)) (.cons (.reference same) .nil)
  | parenthesized inner spans ih => exact .cons (.expression (.parenthesized inner spans)) ih
  | assignment operator lefts rights spans _ ih =>
      exact .cons (.expression (.assignment operator lefts rights spans)) ih
  | python same => exact .cons (.expression (.python same)) .nil

theorem walkOption {first second : Option Expression}
    (same : Option.Rel matching.Expressions first second) :
    List.Forall₂ matching.Encounters (Expression.walkOption first)
      (Expression.walkOption second) := by
  cases same with
  | some same => exact same.walk
  | none => exact .nil

theorem assigned {first second : Option Assignment}
    (same : Option.Rel matching.Assignments first second) :
    List.Forall₂ matching.Encounters (Assignment.walkOption first)
      (Assignment.walkOption second) := by
  cases same with
  | some same => exact same.right.walk
  | none => exact .nil

namespace Statements

theorem span {first second : Statement} (same : matching.Statements first second) :
    matching.Spans first.span second.span := by
  cases same with
  | define same | defaultValue same | jump same | call same => exact same.span
  | label _ _ spans | «return» _ spans | pass spans | pause _ spans | python _ spans => exact spans

theorem isLabel {first second : Statement} (same : matching.Statements first second) :
    first.isLabel = second.isLabel := by
  cases same <;> rfl

mutual

theorem walk : ∀ {first second : Statement}, matching.Statements first second →
    List.Forall₂ matching.Encounters first.walk second.walk
  | .define _, _, .define same => .cons (.define same) (assigned same.assignment)
  | .defaultValue _, _, .defaultValue same => .cons (.defaultValue same) (assigned same.assignment)
  | .label _ _ _, _, .label heads bodies spans =>
      List.rel_append
        (List.rel_flatMap heads.parameters fun _ _ parameters => walkOption parameters.default)
        (.cons (.enterLabel heads spans)
          (List.rel_append (walkAll bodies) (.cons (.leaveLabel heads) .nil)))
  | .jump _, _, .jump same => .cons (.jump same) .nil
  | .call _, _, .call same =>
      .cons (.call same) (List.rel_flatMap same.arguments fun _ _ arguments => arguments.walk)
  | .return _ _, _, .return values _ => walkOption values
  | .pass _, _, .pass _ => .nil
  | .pause _ _, _, .pause durations _ => walkOption durations
  | .python _ _, _, .python _ _ => .nil

theorem walkAll : ∀ {first second : List Statement}, List.Forall₂ matching.Statements first second →
    List.Forall₂ matching.Encounters (Statement.walkAll first) (Statement.walkAll second)
  | [], _, .nil => .nil
  | _ :: _, _, .cons here later => List.rel_append (walk here) (walkAll later)

end

end Statements

theorem Documents.walk {first second : Document} (same : matching.Documents first second) :
    List.Forall₂ matching.Encounters first.walk second.walk :=
  Statements.walkAll same.statements

end Correspondence

end NovelScript
