import NovelScript.Text.Slice

/-!
# Positions

A position names a place in a text by line, column and byte offset, all counted from zero.  A text
moves a position forward character by character; a newline opens the next line.
-/

namespace NovelScript

structure Position where
  line : Nat
  column : Nat
  offset : Nat
  deriving DecidableEq, Repr

namespace Position

def origin : Position := ⟨0, 0, 0⟩

instance : Inhabited Position := ⟨origin⟩

/-- Order by offset, then by line, then by column. -/
def compare (left right : Position) : Ordering :=
  (Ord.compare left.offset right.offset).then
    ((Ord.compare left.line right.line).then (Ord.compare left.column right.column))

instance : Ord Position := ⟨compare⟩

def precedes (left right : Position) : Bool := compare left right != .gt

def min (left right : Position) : Position := if compare left right = .gt then right else left

def max (left right : Position) : Position := if compare left right = .gt then left else right

def step (position : Position) (character : Char) : Position :=
  if character = '\n' then ⟨position.line + 1, 0, position.offset + 1⟩
  else
    ⟨position.line, position.column + character.utf8Size,
      position.offset + character.utf8Size⟩

def after (position : Position) (text : List Char) : Position := text.foldl step position

@[simp] theorem after_nil (position : Position) : position.after [] = position := rfl

@[simp] theorem after_cons (position : Position) (character : Char) (rest : List Char) :
    position.after (character :: rest) = (position.step character).after rest := rfl

@[simp] theorem after_append (position : Position) (first second : List Char) :
    position.after (first ++ second) = (position.after first).after second := by
  simp [after, List.foldl_append]

@[simp] theorem step_offset (position : Position) (character : Char) :
    (position.step character).offset = position.offset + character.utf8Size := by
  unfold step
  split
  · subst character; rfl
  · rfl

@[simp] theorem after_offset (position : Position) (text : List Char) :
    (position.after text).offset = position.offset + Text.byteLength text := by
  induction text generalizing position with
  | nil => simp
  | cons character rest ih => simp [ih, Nat.add_assoc]

def display (position : Position) : String := s!"{position.line}:{position.column}"

/-- One-based text of a position, as messages show it. -/
def displayOneBased (position : Position) : String :=
  s!"{position.line + 1}:{position.column + 1}"

end Position

end NovelScript
