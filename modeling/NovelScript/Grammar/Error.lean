import NovelScript.Token.Basic

/-!
# Parse errors

An error holds what the grammar saw when it gave up: the last token it had consumed, the next one,
and the kinds it would have taken instead.
-/

namespace NovelScript

inductive ParseProblem where
  | unexpectedToken
  | unexpectedEndOfLine
  | unexpectedEndOfFile
  deriving DecidableEq, Repr

namespace ParseProblem

def all : List ParseProblem := [.unexpectedToken, .unexpectedEndOfLine, .unexpectedEndOfFile]

def name : ParseProblem → String
  | unexpectedToken => "UnexpectedToken"
  | unexpectedEndOfLine => "UnexpectedEndOfLine"
  | unexpectedEndOfFile => "UnexpectedEndOfFile"

end ParseProblem

structure ParseError where
  problem : ParseProblem
  current : Option Token
  /-- The lookahead token; absent at the end of the input. -/
  next : Option Token
  /-- Acceptable kinds, none if a whole rule was expected. -/
  expected : List Kind
  deriving DecidableEq, Repr

namespace ParseError

/-- The start of the lookahead token, or else the end of the last consumed one. -/
def position (error : ParseError) : Position :=
  match error.next, error.current with
  | some next, _ => next.start
  | none, some current => current.stop
  | none, none => .origin

def span (error : ParseError) : Span :=
  match error.next with
  | some next => next.span
  | none => .emptyAt error.position

def display (error : ParseError) : String :=
  let actual := match error.next with
    | some next => next.kind.text
    | none => "end of file"
  let place := error.position.displayOneBased
  if error.expected.isEmpty then
    match error.problem with
    | .unexpectedEndOfFile => s!"Unexpected end of file at {place}"
    | _ => s!"Unexpected token '{actual}' at {place}"
  else
    let kinds := "' or '".intercalate (error.expected.map Kind.text)
    s!"Expected token of type '{kinds}', but got '{actual}' at {place}"

end ParseError

end NovelScript
