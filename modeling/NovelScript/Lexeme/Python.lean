import NovelScript.Lexeme.Basic
import NovelScript.Lexeme.Quotation
import NovelScript.Text.Blank

/-!
# Spans of python

Python inside a script is opaque; only its end matters.  A span ends at a newline or a comment
outside all brackets and strings, where a backslash carries it over one newline; a subscript ends
at an unmatched closing bracket as well.  Trailing white space is not part of the span.
-/

namespace NovelScript

inductive PythonMode where
  | expression
  | index
  deriving DecidableEq, Repr

namespace PythonMode

/-- Whether `character`, followed by `rest`, ends a span outside brackets. -/
def endsAt (mode : PythonMode) (character : Char) (rest : List Char) : Bool :=
  character = '\n' || (mode = .index && character = ']') ||
    (character = '\r' && rest.head? = some '\n') || character = '#'

end PythonMode

inductive PythonScan where
  /-- The span has this many characters; zero means there is none. -/
  | complete (length : Nat)
  | unterminated
  deriving DecidableEq, Repr

namespace PythonScan

def lineBreakLength (text : List Char) : Nat :=
  if ['\r', '\n'].isPrefixOf text then 2 else if ['\n'].isPrefixOf text then 1 else 0

/-- Bracket depth behind one character; brackets of all sorts count alike. -/
def depthAfter (depth : Nat) (character : Char) : Nat :=
  if character = '(' ∨ character = '[' ∨ character = '\x7b' then depth + 1
  else if character = ')' ∨ character = ']' ∨ character = '\x7d' then depth - 1
  else depth

/-- Length of a span that goes on for `tail` behind `skipped` characters, of which the first `kept`
belong to it even if nothing follows. -/
def extend (kept skipped tail : Nat) : Nat := if tail = 0 then kept else skipped + tail

/-- Length of the span in front of a text inside `depth` brackets; `none` if it never ends. -/
def length? (mode : PythonMode) (depth : Nat) : List Char → Option Nat
  | [] => if depth = 0 then some 0 else none
  | character :: rest =>
      if depth = 0 ∧ mode.endsAt character rest = true then some 0
      else if character = '#' then
        let comment := (rest.takeWhile (· != '\n')).length
        (length? mode depth (rest.drop comment)).map (extend 0 (1 + comment))
      else
        match Quotation.opening? character rest with
        | some quote =>
            match Quotation.extent quote rest with
            | (_, false) => none
            | (extra, true) =>
                (length? mode depth (rest.drop extra)).map (extend (1 + extra) (1 + extra))
        | none =>
            if character = '\\' then
              let extra := lineBreakLength rest
              (length? mode depth (rest.drop extra)).map (extend 1 (1 + extra))
            else
              (length? mode (depthAfter depth character) rest).map
                (extend (if Text.isWhiteSpace character then 0 else 1) 1)
termination_by text => text.length
decreasing_by all_goals simp only [List.length_cons, List.length_drop]; omega

def ofText (mode : PythonMode) (text : List Char) : PythonScan :=
  match length? mode 0 text with
  | some length => .complete length
  | none => .unterminated

def length (text : List Char) : PythonScan → Nat
  | complete length => length
  | unterminated => text.length

end PythonScan

namespace Lexeme

def blanks : List Char → List Lexeme
  | [] => []
  | first :: rest => [{ kind := .whitespace, text := first :: rest }]

@[simp] theorem joined_blanks (text : List Char) : joined (blanks text) = text := by
  cases text <;> simp [blanks]

/-- The lexemes of embedded python in front of a text, blanks before it included, and the text
behind them. -/
def python (mode : PythonMode) (text : List Char) : List Lexeme × List Char :=
  let before := blanks (text.takeWhile Text.isBlank)
  let body := text.dropWhile Text.isBlank
  match PythonScan.ofText mode body with
  | .unterminated => (before ++ [unclosed .python body], [])
  | .complete 0 => (before, body)
  | .complete (length + 1) =>
      (before ++ [{ kind := .python, text := body.take (length + 1) }], body.drop (length + 1))

@[simp] theorem python_text (mode : PythonMode) (text : List Char) :
    joined (python mode text).1 ++ (python mode text).2 = text := by
  unfold python
  dsimp only
  split <;> simp [unclosed]

theorem python_rest_length_le (mode : PythonMode) (text : List Char) :
    (python mode text).2.length ≤ text.length := by
  have total := congrArg List.length (python_text mode text)
  rw [List.length_append] at total
  omega

end Lexeme

end NovelScript
