import NovelScript.Span

/-!
# Line maps

A line map holds the byte offsets at which the lines of a text start, and converts between offsets
and positions in both directions.  Offsets, lines and columns are unsigned words of 64 bits.  Those
of a text are always small enough, but a column may come from elsewhere and be as large as any word.
-/

namespace NovelScript

/-- Offsets behind the newlines of a text whose first byte is at `offset`. -/
def lineStartsFrom (offset : Nat) : List Char → List Nat
  | [] => []
  | character :: rest =>
      let next := offset + character.utf8Size
      if character = '\n' then next :: lineStartsFrom next rest else lineStartsFrom next rest

structure LineMap where
  /-- Where each line starts, in ascending order; the first line starts at zero. -/
  starts : List Nat
  size : Nat
  deriving DecidableEq, Repr

namespace LineMap

def ofText (text : List Char) : LineMap where
  starts := 0 :: lineStartsFrom 0 text
  size := Text.byteLength text

def lineCount (lines : LineMap) : Nat := lines.starts.length

def lineStart? (lines : LineMap) (line : Nat) : Option Nat := lines.starts[line]?

/-- The last line that starts no later than `offset`, with its start. -/
def lineBefore (offset : Nat) : Nat → Nat → List Nat → Nat × Nat
  | line, start, [] => (line, start)
  | line, start, next :: rest =>
      if next ≤ offset then lineBefore offset (line + 1) next rest else (line, start)

/-- The position of a byte offset; an offset past the end is taken back to the end. -/
def positionAt (lines : LineMap) (offset : Nat) : Position :=
  let offset := Nat.min offset lines.size
  match lines.starts with
  | [] => ⟨0, offset, offset⟩
  | first :: rest =>
      let (line, start) := lineBefore offset 0 first rest
      ⟨line, offset - start, offset⟩

def spanAt (lines : LineMap) (start stop : Nat) : Span :=
  ⟨lines.positionAt start, lines.positionAt stop⟩

/-- The sum of two words, which begins at zero again where it is too large for one. -/
def wordSum (one two : Nat) : Nat := (one.toUInt64 + two.toUInt64).toNat

/-- The position of a line and column, if the line has that column.  The newline itself counts as
the last column of its line. -/
def positionOf? (lines : LineMap) (line column : Nat) : Option Position :=
  match lines.starts[line]? with
  | none => none
  | some start =>
      let lineEnd := match lines.starts[line + 1]? with
        | some next => next - 1
        | none => lines.size
      let offset := wordSum start column
      if offset ≤ lineEnd then some ⟨line, column, offset⟩ else none

end LineMap

end NovelScript
