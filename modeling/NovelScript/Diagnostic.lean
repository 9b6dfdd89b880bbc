import NovelScript.Grammar.Error
import NovelScript.Scope.Resolution
import NovelScript.Token.Stream

/-!
# Diagnostics

Problems of all stages in one shape, in the order of their positions and then of their severities.
A parse error at an invalid token would report that token a second time, so it is left out.
-/

namespace NovelScript

inductive Severity where
  | error
  | warning
  | information
  | hint
  deriving DecidableEq, Repr

namespace Severity

def all : List Severity := [.error, .warning, .information, .hint]

/-- Graver severities have lower ranks. -/
def rank : Severity → Nat
  | error => 0
  | warning => 1
  | information => 2
  | hint => 3

def text : Severity → String
  | error => "error"
  | warning => "warning"
  | information => "info"
  | hint => "hint"

def name : Severity → String
  | error => "Error"
  | warning => "Warning"
  | information => "Information"
  | hint => "Hint"

end Severity

structure Diagnostic where
  span : Span
  severity : Severity
  message : String
  code : Option String := none
  deriving DecidableEq, Repr

namespace Diagnostic

def source : String := "renpy-parser"

def isError (diagnostic : Diagnostic) : Bool := diagnostic.severity == .error

def display (diagnostic : Diagnostic) : String :=
  let code := diagnostic.code.getD source
  let place := diagnostic.span.start.displayOneBased
  s!"{diagnostic.severity.text} [{code}]: {diagnostic.message} at {place}"

def ofLexError (error : LexError) : Diagnostic where
  span := error.span
  severity := .error
  message := error.problem.message
  code := match error.problem with
    | .unterminatedString => "unterminated-string"
    | .unterminatedExpression => "unterminated-python"
    | .unexpectedCharacter => "unexpected-character"

def ofParseError (error : ParseError) : Diagnostic where
  span := error.span
  severity := .error
  message := error.display
  code := match error.problem with
    | .unexpectedToken => "unexpected-token"
    | .unexpectedEndOfLine => "unexpected-end-of-line"
    | .unexpectedEndOfFile => "unexpected-end-of-file"

def ofResolveError (error : ResolveError) : Diagnostic where
  span := error.span
  severity := match error with
    | .duplicateSymbol .. => .error
    | .unresolvedReference .. => .warning
  message := error.message
  code := match error with
    | .duplicateSymbol .. => "duplicate-symbol"
    | .unresolvedReference .. => "unresolved-reference"

def atInvalidToken (error : ParseError) : Bool := error.next.any Token.isInvalid

def precedes (left right : Diagnostic) : Bool :=
  (left.span.start.compare right.span.start).then
    (compare left.severity.rank right.severity.rank) != .gt

def collect (lexErrors : List LexError) (parseErrors : List ParseError)
    (resolveErrors : List ResolveError) : List Diagnostic :=
  let reported := parseErrors.filter fun error => !atInvalidToken error
  (lexErrors.map ofLexError ++ reported.map ofParseError ++
    resolveErrors.map ofResolveError).mergeSort precedes

end Diagnostic

end NovelScript
