import NovelScript.Diagnostic
import NovelScript.Json.Basic
import NovelScript.Syntax.Document

/-!
# JSON forms

The JSON form of everything that commands print.  Fields come in a fixed order; statements and
expressions name their type first, except where only one type can stand.  Absent parts are null.
-/

namespace NovelScript

open Json (ofOption ofList)

/-! ## Places and tokens -/

def Position.toJson (position : Position) : Json :=
  .object [("line", .number position.line), ("column", .number position.column),
    ("offset", .number position.offset)]

def Span.toJson (span : Span) : Json :=
  .object [("start", span.start.toJson), ("end", span.stop.toJson)]

def Kind.toJson (kind : Kind) : Json := .object [(kind.tag.1, .string kind.tag.2)]

/-- A token; what was left unclosed is named only for tokens that have it. -/
def Token.toJson (token : Token) : Json :=
  .object ([("kind", token.kind.toJson), ("start", token.start.toJson),
    ("end", token.stop.toJson)] ++
    token.wrapped.toList.map fun kind => ("wrapped", kind.toJson))

/-! ## Expressions -/

namespace Literal

def fields (literal : Literal) : List (String × Json) :=
  [("kind", .string (Kind.literal literal.kind).tag.2), ("text", .string literal.text),
    ("range", literal.span.toJson)]

def toJson (literal : Literal) : Json := .object literal.fields

end Literal

namespace PythonCode

def fields (code : PythonCode) : List (String × Json) :=
  [("source", .string code.source), ("terminated", .bool code.terminated),
    ("range", code.span.toJson)]

def toJson (code : PythonCode) : Json := .object code.fields

end PythonCode

def Identifier.toJson (identifier : Identifier) : Json :=
  .object [("name", .string identifier.name), ("range", identifier.span.toJson)]

namespace Expression

def toJson (expression : Expression) : Json :=
  let fields := match expression with
    | .literal value => value.fields
    | .reference name => [("name", .string name.name), ("range", name.span.toJson)]
    | .parenthesized inner span => [("inner", inner.toJson), ("range", span.toJson)]
    | .assignment left operator right span =>
        [("left", left.toJson), ("operator", .string operator.name), ("right", right.toJson),
          ("range", span.toJson)]
    | .python code => code.fields
  .object (("type", .string expression.nodeType) :: fields)

end Expression

def Assignment.toJson (assignment : Assignment) : Json :=
  .object [("left", assignment.left.toJson), ("operator", .string assignment.operator.name),
    ("right", assignment.right.toJson), ("range", assignment.span.toJson)]

/-! ## Statements -/

def Parameter.toJson (parameter : Parameter) : Json :=
  .object [("name", parameter.name.toJson), ("default", ofOption Expression.toJson parameter.default)]

def Define.fields (define : Define) : List (String × Json) :=
  [("priority", define.priority.toJson),
    ("assignment", ofOption Assignment.toJson define.assignment),
    ("index", ofOption PythonCode.toJson define.index), ("range", define.span.toJson)]

def DefaultValue.fields (value : DefaultValue) : List (String × Json) :=
  [("priority", value.priority.toJson),
    ("assignment", ofOption Assignment.toJson value.assignment), ("range", value.span.toJson)]

def Jump.fields (jump : Jump) : List (String × Json) :=
  [("target", ofOption Identifier.toJson jump.target),
    ("expression", ofOption PythonCode.toJson jump.expression), ("range", jump.span.toJson)]

def Call.fields (call : Call) : List (String × Json) :=
  [("target", ofOption Identifier.toJson call.target),
    ("arguments", ofList Expression.toJson call.arguments),
    ("expression", ofOption PythonCode.toJson call.expression),
    ("screen", ofOption Identifier.toJson call.screen),
    ("from", ofOption Identifier.toJson call.returnSite), ("range", call.span.toJson)]

namespace Statement

mutual

def toJson (statement : Statement) : Json :=
  let fields := match statement with
    | .define binding => binding.fields
    | .defaultValue binding => binding.fields
    | .label head body span =>
        [("name", ofOption Identifier.toJson head.name),
          ("parameters", ofList Parameter.toJson head.parameters),
          ("body", .array (toJsonAll body)), ("range", span.toJson)]
    | .jump transfer => transfer.fields
    | .call transfer => transfer.fields
    | .return value span =>
        [("value", ofOption Expression.toJson value), ("range", span.toJson)]
    | .pass span => [("range", span.toJson)]
    | .pause duration span =>
        [("duration", ofOption Expression.toJson duration), ("range", span.toJson)]
    | .python code span =>
        [("code", ofOption PythonCode.toJson code), ("range", span.toJson)]
  .object (("type", .string statement.nodeType) :: fields)

def toJsonAll : List Statement → List Json
  | [] => []
  | statement :: rest => toJson statement :: toJsonAll rest

end

end Statement

def Document.toJson (document : Document) : Json :=
  .object [("statements", .array (Statement.toJsonAll document.statements)),
    ("range", document.span.toJson)]

/-! ## Findings -/

def Diagnostic.toJson (diagnostic : Diagnostic) : Json :=
  .object [("range", diagnostic.span.toJson), ("severity", .string diagnostic.severity.name),
    ("message", .string diagnostic.message), ("code", ofOption .string diagnostic.code),
    ("source", .string Diagnostic.source)]

def Symbol.toJson (symbol : Symbol) : Json :=
  .object [("name", .string symbol.name), ("kind", .string symbol.kind.name),
    ("scope", .number symbol.scope), ("definition", ofOption Span.toJson symbol.definition),
    ("references", ofList Span.toJson symbol.references)]

end NovelScript
