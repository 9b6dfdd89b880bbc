import NovelScript.Text.Printable

/-!
# Quoted text

The quoted form of a text shows every character on one line: quotes, backslashes and the usual
control characters by a letter, other unprintable characters and grapheme extenders by their code
point.
-/

namespace NovelScript.Text

/-- The code point of a character, in hexadecimal between braces behind `\u`. -/
def codePointEscape (character : Char) : List Char :=
  ['\\', 'u', '\x7b'] ++ Nat.toDigits 16 character.toNat ++ ['\x7d']

def escapeCharacter (character : Char) : List Char :=
  if character = '\x00' then ['\\', '0']
  else if character = '\t' then ['\\', 't']
  else if character = '\r' then ['\\', 'r']
  else if character = '\n' then ['\\', 'n']
  else if character = '"' then ['\\', '"']
  else if character = '\\' then ['\\', '\\']
  else if isGraphemeExtend character || !isPrintable character then codePointEscape character
  else [character]

/-- A text between double quotes, with every hidden character made visible. -/
def quote (text : String) : String :=
  String.ofList ('"' :: text.toList.flatMap escapeCharacter ++ ['"'])

end NovelScript.Text
