import NovelScript.Lexeme.Core
import NovelScript.Lexeme.Python

/-!
# Lexemes of a script

Whether python starts somewhere depends on what stood on the line before: a dollar sign that opens
the line, the assignment operator or the subscript of a definition, or the word `expression` behind
a jump or a call.
-/

namespace NovelScript

/-- What the current line has shown so far. -/
inductive LineContext where
  /-- Only blanks and comments. -/
  | start
  /-- A definition that has not reached its assignment operator. -/
  | awaitingAssignment
  /-- A jump or a call in front of its target. -/
  | awaitingTarget
  | rest
  deriving DecidableEq, Repr

namespace LineContext

/-- The context behind a lexeme, and the embedded python that starts there. -/
def next : LineContext → Kind → LineContext × Option PythonMode
  | _, .newline => (.start, none)
  | .start, .whitespace => (.start, none)
  | .start, .comment => (.start, none)
  | .start, .keyword .define => (.awaitingAssignment, none)
  | .start, .keyword .default => (.awaitingAssignment, none)
  | .start, .keyword .jump => (.awaitingTarget, none)
  | .start, .keyword .call => (.awaitingTarget, none)
  | .start, .punctuation .dollar => (.rest, some .expression)
  | .awaitingAssignment, .operator operator =>
      if operator.isAssignment then (.rest, some .expression) else (.awaitingAssignment, none)
  | .awaitingAssignment, .punctuation .openBracket => (.awaitingAssignment, some .index)
  | .awaitingAssignment, _ => (.awaitingAssignment, none)
  | .awaitingTarget, .whitespace => (.awaitingTarget, none)
  | .awaitingTarget, .keyword .expression => (.rest, some .expression)
  | _, _ => (.rest, none)

end LineContext

namespace Lexeme

def fromContext (context : LineContext) : List Char → List Lexeme
  | [] => []
  | first :: rest =>
      let lexeme := (core first rest).1
      let behind := (core first rest).2
      match context.next lexeme.kind with
      | (context, none) => lexeme :: fromContext context behind
      | (context, some mode) =>
          lexeme :: ((python mode behind).1 ++ fromContext context (python mode behind).2)
termination_by text => text.length
decreasing_by
  · have := core_rest_length_le first rest
    simp; omega
  · have := core_rest_length_le first rest
    have := python_rest_length_le mode (core first rest).2
    simp; omega

def ofText (text : List Char) : List Lexeme := fromContext .start text

@[simp] theorem joined_fromContext (context : LineContext) (text : List Char) :
    joined (fromContext context text) = text := by
  fun_induction fromContext context text with
  | case1 => rfl
  | case2 context first rest lexeme behind following step ih =>
      simp [ih, lexeme, behind]
  | case3 context first rest lexeme behind following mode step ih =>
      simp [ih, lexeme, behind]

@[simp] theorem joined_ofText (text : List Char) : joined (ofText text) = text :=
  joined_fromContext .start text

end Lexeme

end NovelScript
