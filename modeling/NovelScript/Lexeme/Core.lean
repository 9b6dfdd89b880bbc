import NovelScript.Lexeme.Basic
import NovelScript.Lexeme.Quotation
import NovelScript.Text.Blank
import NovelScript.Text.Name

/-!
# Core lexemes

The lexemes of the script grammar proper.  Each one is the longest that starts at its place; a
character that starts none is invalid on its own.  A lexeme is given by its first character and the
number of further ones, so it is never empty.
-/

namespace NovelScript.Lexeme

open Text

/-! ## Numbers -/

def digitCount (text : List Char) : Nat := (text.takeWhile Char.isDigit).length

/-- Characters of an exponent, with its sign and at least one digit. -/
def exponentLength : List Char → Nat
  | mark :: rest =>
      if mark = 'e' ∨ mark = 'E' then
        match rest with
        | sign :: digits =>
            if sign = '+' ∨ sign = '-' then
              if digitCount digits = 0 then 0 else 2 + digitCount digits
            else if digitCount rest = 0 then 0
            else 1 + digitCount rest
        | [] => 0
      else 0
  | [] => 0

def number (rest : List Char) : Kind × Nat :=
  let whole := digitCount rest
  match rest.drop whole with
  | '.' :: fraction =>
      let places := digitCount fraction
      if places = 0 then (.literal .integer, whole)
      else
        (.literal .float, whole + 1 + places + exponentLength (fraction.drop places))
  | _ => (.literal .integer, whole)

/-! ## Words and symbols -/

def wordKind (word : List Char) : Kind :=
  let spelling := String.ofList word
  match Keyword.ofText? spelling with
  | some keyword => .keyword keyword
  | none =>
      if spelling = "True" ∨ spelling = "False" then .literal .boolean else .identifier

def startsWord (character : Char) : Bool := character = '_' || isNameStart character

def symbolKind? (spelling : List Char) : Option Kind :=
  match Operator.all.find? (·.text.toList == spelling) with
  | some operator => some (.operator operator)
  | none => (Punctuation.all.find? (·.text.toList == spelling)).map .punctuation

/-- The longer of the symbols that start a text, with its characters behind the first. -/
def symbol? (first : Char) (rest : List Char) : Option (Kind × Nat) :=
  match rest with
  | second :: _ =>
      match symbolKind? [first, second] with
      | some kind => some (kind, 1)
      | none => (symbolKind? [first]).map (·, 0)
  | [] => (symbolKind? [first]).map (·, 0)

/-! ## One lexeme -/

/-- Kind, wrapped kind and number of further characters of the lexeme that `first` starts. -/
def classify (first : Char) (rest : List Char) : Kind × Option Kind × Nat :=
  if isBlank first then (.whitespace, none, (rest.takeWhile isBlank).length)
  else if first = '\n' then (.newline, none, 0)
  else if first = '\r' then
    if rest.head? = some '\n' then (.newline, none, 1) else (.invalid, none, 0)
  else if first = '#' then
    (.comment, none, (rest.takeWhile fun character => character != '\r' && character != '\n').length)
  else if startsWord first then
    let tail := rest.takeWhile isNameContinue
    (wordKind (first :: tail), none, tail.length)
  else if first.isDigit then
    let (kind, extra) := number rest
    (kind, none, extra)
  else
    let quote? :=
      if first = Quotation.backquote then some [first] else Quotation.opening? first rest
    match quote? with
    | some quote =>
        match Quotation.extent quote rest with
        | (extra, true) => (.literal .string, none, extra)
        | (extra, false) => (.invalid, some (.literal .string), extra)
    | none =>
        match symbol? first rest with
        | some (kind, extra) => (kind, none, extra)
        | none => (.invalid, none, 0)

def core (first : Char) (rest : List Char) : Lexeme × List Char :=
  let (kind, wrapped, extra) := classify first rest
  (⟨kind, wrapped, first :: rest.take extra⟩, rest.drop extra)

@[simp] theorem core_text (first : Char) (rest : List Char) :
    (core first rest).1.text ++ (core first rest).2 = first :: rest := by
  simp [core]

theorem core_rest_length_le (first : Char) (rest : List Char) :
    (core first rest).2.length ≤ rest.length := by
  simp [core]

/-- All core lexemes of a text, with no regard to embedded python. -/
def coreLexemes : List Char → List Lexeme
  | [] => []
  | first :: rest => (core first rest).1 :: coreLexemes (core first rest).2
termination_by text => text.length
decreasing_by
  have := core_rest_length_le first rest
  simp; omega

end NovelScript.Lexeme
