/-!
# Byte offsets in a text

A text is a list of characters, while offsets and columns count the bytes of its UTF-8 form.  A
slice between two offsets exists only if both are character boundaries in order.
-/

namespace NovelScript.Text

def byteLength : List Char → Nat
  | [] => 0
  | character :: rest => character.utf8Size + byteLength rest

@[simp] theorem byteLength_nil : byteLength [] = 0 := rfl

@[simp] theorem byteLength_cons (character : Char) (rest : List Char) :
    byteLength (character :: rest) = character.utf8Size + byteLength rest := rfl

@[simp] theorem byteLength_append (first second : List Char) :
    byteLength (first ++ second) = byteLength first + byteLength second := by
  induction first with
  | nil => simp
  | cons character rest ih => simp [ih, Nat.add_assoc]

/-- The text after its first `count` bytes, if they end on a boundary. -/
def dropBytes : Nat → List Char → Option (List Char)
  | 0, text => some text
  | _ + 1, [] => none
  | count + 1, character :: rest =>
      if character.utf8Size ≤ count + 1 then dropBytes (count + 1 - character.utf8Size) rest
      else none

/-- The first `count` bytes of a text, if they end on a boundary. -/
def takeBytes : Nat → List Char → Option (List Char)
  | 0, _ => some []
  | _ + 1, [] => none
  | count + 1, character :: rest =>
      if character.utf8Size ≤ count + 1 then
        (takeBytes (count + 1 - character.utf8Size) rest).map (character :: ·)
      else none

def slice? (text : List Char) (start stop : Nat) : Option (List Char) :=
  if start ≤ stop then (dropBytes start text).bind (takeBytes (stop - start)) else none

/-- The text between two byte offsets, empty where there is no such text. -/
def slice (text : List Char) (start stop : Nat) : List Char :=
  (slice? text start stop).getD []

theorem dropBytes_append (first second : List Char) :
    dropBytes (byteLength first) (first ++ second) = some second := by
  induction first with
  | nil => cases second <;> rfl
  | cons character rest ih =>
      have positive := character.utf8Size_pos
      obtain ⟨count, equal⟩ : ∃ count, byteLength (character :: rest) = count + 1 :=
        ⟨byteLength (character :: rest) - 1, by simp; omega⟩
      rw [equal, List.cons_append, dropBytes]
      rw [byteLength_cons] at equal
      have enough : character.utf8Size ≤ count + 1 := by omega
      have remaining : count + 1 - character.utf8Size = byteLength rest := by omega
      rw [if_pos enough, remaining, ih]

theorem takeBytes_append (first second : List Char) :
    takeBytes (byteLength first) (first ++ second) = some first := by
  induction first with
  | nil => cases second <;> rfl
  | cons character rest ih =>
      have positive := character.utf8Size_pos
      obtain ⟨count, equal⟩ : ∃ count, byteLength (character :: rest) = count + 1 :=
        ⟨byteLength (character :: rest) - 1, by simp; omega⟩
      rw [equal, List.cons_append, takeBytes]
      rw [byteLength_cons] at equal
      have enough : character.utf8Size ≤ count + 1 := by omega
      have remaining : count + 1 - character.utf8Size = byteLength rest := by omega
      rw [if_pos enough, remaining, ih]
      rfl

/-- A part of a text is the slice between the offsets of its ends. -/
@[simp] theorem slice?_append (before part after : List Char) :
    slice? (before ++ (part ++ after)) (byteLength before)
      (byteLength before + byteLength part) = some part := by
  have ordered : byteLength before ≤ byteLength before + byteLength part := by omega
  have width : byteLength before + byteLength part - byteLength before = byteLength part := by
    omega
  simp [slice?, ordered, width, dropBytes_append, takeBytes_append]

@[simp] theorem slice_append (before part after : List Char) :
    slice (before ++ (part ++ after)) (byteLength before) (byteLength before + byteLength part) =
      part := by
  simp [slice]

end NovelScript.Text
