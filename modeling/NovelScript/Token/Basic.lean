import NovelScript.Lexeme.Line
import NovelScript.Span

/-!
# Tokens

A token is a kind placed in a text.  It carries no text of its own: its value is whatever the
source holds under its span.  The tokens of a script cover it without gaps.
-/

namespace NovelScript

structure Token where
  kind : Kind
  span : Span
  /-- The kind of what was left unclosed, for invalid tokens. -/
  wrapped : Option Kind := none
  deriving DecidableEq, Repr

namespace Token

def start (token : Token) : Position := token.span.start

def stop (token : Token) : Position := token.span.stop

/-- The text of a token in the source it belongs to, empty for a span the source does not have. -/
def value (source : List Char) (token : Token) : String :=
  String.ofList (token.span.textIn source)

/-- Whether a token is of a kind, or stands for an unclosed piece of that kind. -/
def hasKind (token : Token) (kind : Kind) : Bool :=
  token.kind == kind || token.wrapped == some kind

def isInvalid (token : Token) : Bool := token.kind == .invalid

/-- A name is an identifier or any keyword, since keywords are reserved only where a statement
starts. -/
def isName (token : Token) : Bool :=
  token.hasKind .identifier || match token.kind with
    | .keyword _ => true
    | _ => false

/-- Lexemes as tokens, one behind the other from `position` on. -/
def place (position : Position) : List Lexeme → List Token
  | [] => []
  | lexeme :: rest =>
      let stop := position.after lexeme.text
      { kind := lexeme.kind, span := ⟨position, stop⟩, wrapped := lexeme.wrapped } ::
        place stop rest

theorem place_append (position : Position) (first second : List Lexeme) :
    place position (first ++ second) =
      place position first ++ place (position.after (Lexeme.joined first)) second := by
  induction first generalizing position with
  | nil => rfl
  | cons lexeme first ih => simp [place, ih]

@[simp] theorem place_kinds (position : Position) (lexemes : List Lexeme) :
    (place position lexemes).map kind = lexemes.map Lexeme.kind := by
  induction lexemes generalizing position with
  | nil => rfl
  | cons lexeme rest ih => simp [place, ih]

def ofText (source : List Char) : List Token := place .origin (Lexeme.ofText source)

end Token

end NovelScript
