import NovelScript.Toml.Reader

/-!
# Strings and keys

Four kinds of strings: basic ones know escapes, literal ones do not, and either may go over several
lines between triple quotes.  Keys are bare, or single-line strings.
-/

namespace NovelScript.Toml

/-! ## Escapes -/

def hexDigit? (character : Char) : Option Nat :=
  let code := character.toNat
  if '0' ≤ character ∧ character ≤ '9' then some (code - '0'.toNat)
  else if 'a' ≤ character ∧ character ≤ 'f' then some (code - 'a'.toNat + 10)
  else if 'A' ≤ character ∧ character ≤ 'F' then some (code - 'A'.toNat + 10)
  else none

/-- The character that hexadecimal digits name; surrogates and too large numbers name none. -/
def codePoint? (digits : List Char) : Option Char := do
  let values ← digits.mapM hexDigit?
  let code := values.foldl (fun code digit => 16 * code + digit) 0
  if code.isValidChar then some (Char.ofNat code) else none

def escaped? : Char → Option Char
  | 'b' => some '\x08'
  | 't' => some '\t'
  | 'n' => some '\n'
  | 'f' => some '\x0c'
  | 'r' => some '\r'
  | '"' => some '"'
  | '\\' => some '\\'
  | _ => none

/-! ## Strings on one line -/

def basic : Reader (List Char)
  | '"' :: rest => some ([], rest)
  | '\\' :: 'u' :: a :: b :: c :: d :: rest => do
      let character ← codePoint? [a, b, c, d]
      let (tail, rest) ← basic rest
      some (character :: tail, rest)
  | '\\' :: 'U' :: a :: b :: c :: d :: e :: f :: g :: h :: rest => do
      let character ← codePoint? [a, b, c, d, e, f, g, h]
      let (tail, rest) ← basic rest
      some (character :: tail, rest)
  | '\\' :: letter :: rest => do
      let character ← escaped? letter
      let (tail, rest) ← basic rest
      some (character :: tail, rest)
  | character :: rest => do
      if character = '\\' || isControl character then none
      else
        let (tail, rest) ← basic rest
        some (character :: tail, rest)
  | [] => none

def literal : Reader (List Char)
  | '\'' :: rest => some ([], rest)
  | character :: rest => do
      if isControl character then none
      else
        let (tail, rest) ← literal rest
        some (character :: tail, rest)
  | [] => none

/-! ## Strings over several lines -/

/-- Whether a character may stand in a string over several lines. -/
def isLineCharacter (character : Char) : Bool := character = '\n' || !isControl character

/-- Up to two quotes may stand in front of the three that close a string; what stands there, and the
text behind the string. -/
def closing? (quote : Char) : Reader (List Char)
  | a :: b :: c :: d :: e :: rest =>
      if [a, b, c, d, e].all (· = quote) then some ([quote, quote], rest)
      else if [a, b, c, d].all (· = quote) then some ([quote], e :: rest)
      else if [a, b, c].all (· = quote) then some ([], d :: e :: rest)
      else none
  | [a, b, c, d] =>
      if [a, b, c, d].all (· = quote) then some ([quote], [])
      else if [a, b, c].all (· = quote) then some ([], [d])
      else none
  | [a, b, c] => if [a, b, c].all (· = quote) then some ([], []) else none
  | _ => none

/-- The text behind a line end that a backslash joined, with all blanks and line ends that follow;
refused if something else stands in front of the line end. -/
def joinLines (text : List Char) : Option (List Char) :=
  match skipBlanks text with
  | '\n' :: rest => some (rest.dropWhile fun character => isBlank character || character = '\n')
  | _ => none

def basicLinesStep (before : List Char) (text : List Char) : Option (Progress (List Char)) :=
  match closing? '"' text with
  | some (quotes, rest) => some (.done (before ++ quotes) rest)
  | none =>
      match text with
      | '\\' :: 'u' :: a :: b :: c :: d :: rest => do
          let character ← codePoint? [a, b, c, d]
          some (.more (before ++ [character]) rest)
      | '\\' :: 'U' :: a :: b :: c :: d :: e :: f :: g :: h :: rest => do
          let character ← codePoint? [a, b, c, d, e, f, g, h]
          some (.more (before ++ [character]) rest)
      | '\\' :: letter :: rest =>
          match escaped? letter with
          | some character => some (.more (before ++ [character]) rest)
          | none => (joinLines (letter :: rest)).map (.more before)
      | character :: rest =>
          if character != '\\' && isLineCharacter character then
            some (.more (before ++ [character]) rest)
          else none
      | [] => none

def literalLinesStep (before : List Char) (text : List Char) : Option (Progress (List Char)) :=
  match closing? '\'' text with
  | some (quotes, rest) => some (.done (before ++ quotes) rest)
  | none =>
      match text with
      | character :: rest =>
          if isLineCharacter character then some (.more (before ++ [character]) rest) else none
      | [] => none

/-- The text behind a line end that follows directly on opening quotes. -/
def trimFirstLine : List Char → List Char
  | '\n' :: rest => rest
  | text => text

def string : Reader String := fun text => do
  let (content, rest) ← match text with
    | '"' :: '"' :: '"' :: rest => repeated basicLinesStep [] (trimFirstLine rest)
    | '\'' :: '\'' :: '\'' :: rest => repeated literalLinesStep [] (trimFirstLine rest)
    | '"' :: rest => basic rest
    | '\'' :: rest => literal rest
    | _ => none
  some (String.ofList content, rest)

/-! ## Keys -/

def isBare (character : Char) : Bool :=
  character.isAlphanum || character = '_' || character = '-'

def simpleKey : Reader String := fun text => do
  match text with
  | '"' :: rest =>
      let (name, rest) ← basic rest
      some (String.ofList name, rest)
  | '\'' :: rest =>
      let (name, rest) ← literal rest
      some (String.ofList name, rest)
  | _ =>
      let name := text.takeWhile isBare
      if name.isEmpty then none else some (String.ofList name, text.drop name.length)

def keyStep (before : List String) (text : List Char) : Option (Progress (List String)) := do
  let (name, rest) ← simpleKey (skipBlanks text)
  match skipBlanks rest with
  | '.' :: rest => some (.more (before ++ [name]) rest)
  | rest => some (.done (before ++ [name]) rest)

/-- The deepest nesting of keys and of values. -/
def maxNesting : Nat := 79

def key : Reader (List String) := fun text => do
  let (names, rest) ← repeated keyStep [] text
  if names.length ≤ maxNesting then some (names, rest) else none

end NovelScript.Toml
