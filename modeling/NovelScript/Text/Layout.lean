/-!
# Columns of text

Padding counts characters, not bytes.
-/

namespace NovelScript.Text

/-- The text followed by as many blanks as it lacks to `width`. -/
def padRight (width : Nat) (text : String) : String :=
  text ++ String.ofList (List.replicate (width - text.length) ' ')

/-- The number in decimal, with zeros in front up to `width` digits. -/
def padNumber (width : Nat) (number : Nat) : String :=
  let digits := toString number
  String.ofList (List.replicate (width - digits.length) '0') ++ digits

/-- The text cut after `limit` characters, with an ellipsis if anything was cut. -/
def truncate (limit : Nat) (text : String) : String :=
  if text.length > limit then String.ofList (text.toList.take limit) ++ "..." else text

def unlines (lines : List String) : String :=
  String.join (lines.map (· ++ "\n"))

end NovelScript.Text
