import NovelScript.Token.Basic

/-!
# Token streams

A stream is a list of tokens in document order, trivia included.  It answers which token lies at a
position, gives the text back and lists the lexical errors.
-/

namespace NovelScript

/-! ## Bisection -/

namespace Bisection

/-- Narrow the `size` items from `base` on down to one. -/
def narrow (holds : α → Bool) (items : Array α) (base size : Nat) : Nat :=
  if size ≤ 1 then base
  else
    let half := size / 2
    let middle := base + half
    narrow holds items (if (items[middle]?).any holds then middle else base) (size - half)
termination_by size
decreasing_by omega

/-- The index of the first item that fails, if `holds` is true of a first part of the items and
false of the rest. -/
def firstFailing (holds : α → Bool) (items : Array α) : Nat :=
  let base := narrow holds items 0 items.size
  if (items[base]?).any holds then base + 1 else base

end Bisection

/-! ## Lexical errors -/

inductive LexProblem where
  | unterminatedString
  | unterminatedExpression
  | unexpectedCharacter
  deriving DecidableEq, Repr

namespace LexProblem

def message : LexProblem → String
  | unterminatedString => "unterminated string literal"
  | unterminatedExpression => "unterminated python expression"
  | unexpectedCharacter => "unexpected character"

def name : LexProblem → String
  | unterminatedString => "UnterminatedString"
  | unterminatedExpression => "UnterminatedExpression"
  | unexpectedCharacter => "UnexpectedCharacter"

def all : List LexProblem := [.unterminatedString, .unterminatedExpression, .unexpectedCharacter]

end LexProblem

structure LexError where
  problem : LexProblem
  span : Span
  deriving DecidableEq, Repr

namespace LexError

def display (error : LexError) : String :=
  s!"{error.problem.message} at {error.span.start.displayOneBased}"

def ofToken? (token : Token) : Option LexError :=
  if token.isInvalid then
    let problem := match token.wrapped with
      | some .python => LexProblem.unterminatedExpression
      | some _ => .unterminatedString
      | none => .unexpectedCharacter
    some ⟨problem, token.span⟩
  else none

end LexError

/-! ## Streams -/

abbrev TokenStream := List Token

namespace TokenStream

def reconstruct (source : List Char) (stream : TokenStream) : List Char :=
  stream.flatMap fun token => token.span.textIn source

/-- The token that holds the byte at `position`. -/
def tokenAt? (stream : TokenStream) (position : Position) : Option Token :=
  let index := Bisection.firstFailing (·.stop.offset ≤ position.offset) stream.toArray
  (stream[index]?).filter (·.start.offset ≤ position.offset)

def lexErrors (stream : TokenStream) : List LexError := stream.filterMap LexError.ofToken?

end TokenStream

end NovelScript
