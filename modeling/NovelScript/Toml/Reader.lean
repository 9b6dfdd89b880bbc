/-!
# Readers

A reader takes what it recognizes off the front of a text, or refuses.  Texts have their line ends
normalized beforehand, so that a line feed is the only one.
-/

namespace NovelScript.Toml

abbrev Reader (α : Type) := List Char → Option (α × List Char)

/-! ## Line ends and blanks -/

/-- Write every carriage return in front of a line feed off; others stay, and are refused later as
control characters. -/
def normalizeLineEnds : List Char → List Char
  | [] => []
  | '\r' :: '\n' :: rest => '\n' :: normalizeLineEnds rest
  | character :: rest => character :: normalizeLineEnds rest

def isBlank (character : Char) : Bool := character = ' ' || character = '\t'

def skipBlanks (text : List Char) : List Char := text.dropWhile isBlank

/-- Control characters, of which only the tab may stand in a document. -/
def isControl (character : Char) : Bool :=
  (character.toNat < 0x20 && character != '\t') || character.toNat == 0x7F

/-- The text behind a comment, which goes up to the line end; refused if it holds a control
character. -/
def skipComment : List Char → Option (List Char)
  | '#' :: rest =>
      let comment := rest.takeWhile (· != '\n')
      if comment.any isControl then none else some (rest.drop comment.length)
  | text => some text

/-- The next line, if nothing but blanks and a comment is left of this one. -/
def endLine (text : List Char) : Option (List Char) := do
  match ← skipComment (skipBlanks text) with
  | [] => some []
  | '\n' :: rest => some rest
  | _ => none

/-! ## Repetition -/

/-- What one step of a repetition comes to. -/
inductive Progress (σ : Type) where
  | more (state : σ) (rest : List Char)
  | done (state : σ) (rest : List Char)

/-- Repeat a step until it is done.  A step that wants more must have taken something. -/
def repeated (step : σ → List Char → Option (Progress σ)) (state : σ) (text : List Char) :
    Option (σ × List Char) :=
  match step state text with
  | none => none
  | some (.done state rest) => some (state, rest)
  | some (.more state rest) =>
      if rest.length < text.length then repeated step state rest else none
termination_by text.length

def spaceStep (_ : Unit) (text : List Char) : Option (Progress Unit) := do
  match ← skipComment (skipBlanks text) with
  | '\n' :: rest => some (.more () rest)
  | rest => some (.done () rest)

def skipSpace (text : List Char) : Option (List Char) := (repeated spaceStep () text).map (·.2)

end NovelScript.Toml
