import NovelScript.Token.Kind

/-!
# Lexemes

A lexeme is a piece of text with its kind, not yet placed anywhere.  Invalid input that opens a
string or a span of python without closing it remembers the kind it would have had.
-/

namespace NovelScript

structure Lexeme where
  kind : Kind
  wrapped : Option Kind := none
  text : List Char
  deriving DecidableEq, Repr

namespace Lexeme

/-- Text that should have been closed before the end of the input. -/
def unclosed (wrapped : Kind) (text : List Char) : Lexeme := ⟨.invalid, some wrapped, text⟩

def joined (lexemes : List Lexeme) : List Char := lexemes.flatMap text

@[simp] theorem joined_nil : joined [] = [] := rfl

@[simp] theorem joined_cons (lexeme : Lexeme) (rest : List Lexeme) :
    joined (lexeme :: rest) = lexeme.text ++ joined rest := rfl

@[simp] theorem joined_append (first second : List Lexeme) :
    joined (first ++ second) = joined first ++ joined second := by
  simp [joined]

end Lexeme

end NovelScript
