import NovelScript.Syntax.Document

/-!
# Walks

A walk meets the nodes of a document that carry names, in the order in which names take effect.  A
statement comes before its parts; the defaults of a label's parameters belong to the code around
the label and so come before it; the end of a label's body is met as well.  The left side of an
assignment is a name being bound and is not met as an expression.
-/

namespace NovelScript

inductive Encounter where
  | define (define : Define)
  | defaultValue (value : DefaultValue)
  | enterLabel (head : LabelHead) (span : Span)
  | leaveLabel (head : LabelHead)
  | jump (jump : Jump)
  | call (call : Call)
  | expression (expression : Expression)
  | reference (reference : Reference)
  deriving Repr

namespace Expression

def walk : Expression → List Encounter
  | .literal value => [.expression (.literal value)]
  | .reference name => [.expression (.reference name), .reference name]
  | .parenthesized inner span => .expression (.parenthesized inner span) :: inner.walk
  | .assignment left operator right span =>
      .expression (.assignment left operator right span) :: right.walk
  | .python code => [.expression (.python code)]

def walkOption : Option Expression → List Encounter
  | some expression => expression.walk
  | none => []

end Expression

namespace Assignment

def walkOption : Option Assignment → List Encounter
  | some assignment => assignment.right.walk
  | none => []

end Assignment

namespace Statement

mutual

def walk : Statement → List Encounter
  | .define binding => .define binding :: Assignment.walkOption binding.assignment
  | .defaultValue binding => .defaultValue binding :: Assignment.walkOption binding.assignment
  | .label head body span =>
      head.parameters.flatMap (Expression.walkOption ·.default) ++
        .enterLabel head span :: (walkAll body ++ [.leaveLabel head])
  | .jump transfer => [.jump transfer]
  | .call transfer => .call transfer :: transfer.arguments.flatMap Expression.walk
  | .return value _ => Expression.walkOption value
  | .pass _ => []
  | .pause duration _ => Expression.walkOption duration
  | .python _ _ => []

def walkAll : List Statement → List Encounter
  | [] => []
  | statement :: rest => walk statement ++ walkAll rest

end

end Statement

namespace Document

def walk (document : Document) : List Encounter := Statement.walkAll document.statements

end Document

end NovelScript
