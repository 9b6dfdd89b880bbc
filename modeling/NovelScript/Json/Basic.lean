/-!
# JSON values

Values with their object fields in order, and the indented form in which they are printed: two
blanks per level, one field or element per line, empty containers on one line.
-/

namespace NovelScript

inductive Json where
  | null
  | bool (value : Bool)
  | number (value : Nat)
  | string (value : String)
  | array (elements : List Json)
  | object (fields : List (String × Json))
  deriving Repr

namespace Json

def ofOption (encode : α → Json) : Option α → Json
  | some value => encode value
  | none => null

def ofList (encode : α → Json) (values : List α) : Json := array (values.map encode)

def escapeCharacter (character : Char) : List Char :=
  if character = '"' then ['\\', '"']
  else if character = '\\' then ['\\', '\\']
  else if character = '\x08' then ['\\', 'b']
  else if character = '\x0c' then ['\\', 'f']
  else if character = '\n' then ['\\', 'n']
  else if character = '\r' then ['\\', 'r']
  else if character = '\t' then ['\\', 't']
  else if character.toNat < 0x20 then
    let digits := Nat.toDigits 16 character.toNat
    ['\\', 'u'] ++ List.replicate (4 - digits.length) '0' ++ digits
  else [character]

def quote (text : String) : String :=
  String.ofList ('"' :: text.toList.flatMap escapeCharacter ++ ['"'])

def lineBreak (level : Nat) : String := "\n" ++ String.ofList (List.replicate (2 * level) ' ')

mutual

/-- The indented form of a value whose own line is `level` steps in. -/
def prettyAt (level : Nat) : Json → String
  | null => "null"
  | bool value => if value then "true" else "false"
  | number value => toString value
  | string value => quote value
  | array [] => "[]"
  | array (first :: rest) =>
      "[" ++ lineBreak (level + 1) ++ prettyAt (level + 1) first ++ prettyElements level rest ++
        lineBreak level ++ "]"
  | object [] => "\x7b\x7d"
  | object ((name, value) :: rest) =>
      "\x7b" ++ lineBreak (level + 1) ++ quote name ++ ": " ++ prettyAt (level + 1) value ++
        prettyFields level rest ++ lineBreak level ++ "\x7d"

def prettyElements (level : Nat) : List Json → String
  | [] => ""
  | first :: rest =>
      "," ++ lineBreak (level + 1) ++ prettyAt (level + 1) first ++ prettyElements level rest

def prettyFields (level : Nat) : List (String × Json) → String
  | [] => ""
  | (name, value) :: rest =>
      "," ++ lineBreak (level + 1) ++ quote name ++ ": " ++ prettyAt (level + 1) value ++
        prettyFields level rest

end

def pretty (value : Json) : String := prettyAt 0 value

end Json

end NovelScript
