/-!
# White space

The Unicode property `White_Space`, and the blanks that separate words on a script line.
-/

namespace NovelScript.Text

def isWhiteSpace (character : Char) : Bool :=
  let code := character.toNat
  (0x9 ≤ code && code ≤ 0xD) || code == 0x20 || code == 0x85 || code == 0xA0 || code == 0x1680 ||
    (0x2000 ≤ code && code ≤ 0x200A) || code == 0x2028 || code == 0x2029 || code == 0x202F ||
    code == 0x205F || code == 0x3000

def isBlank (character : Char) : Bool :=
  character = ' ' || character = '\t' || character = '\x0c'

end NovelScript.Text
