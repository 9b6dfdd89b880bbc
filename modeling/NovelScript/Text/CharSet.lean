/-!
# Sets of characters

A set is written as closed ranges of code points in ascending order, so that a search may stop at
the first range that lies above the character.
-/

namespace NovelScript.Text

/-- Whether `code` lies in one of the ascending ranges. -/
def inRanges (code : Nat) : List (Nat × Nat) → Bool
  | [] => false
  | (low, high) :: rest => low ≤ code && (code ≤ high || inRanges code rest)

@[simp] theorem inRanges_nil (code : Nat) : inRanges code [] = false := rfl

@[simp] theorem inRanges_cons (code low high : Nat) (rest : List (Nat × Nat)) :
    inRanges code ((low, high) :: rest) =
      (decide (low ≤ code) && (decide (code ≤ high) || inRanges code rest)) := rfl

end NovelScript.Text
