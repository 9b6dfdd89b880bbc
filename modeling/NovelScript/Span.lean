import NovelScript.Position

/-!
# Spans

A span runs from a start to a stop.  An editor's cursor right behind the last character still
counts as being on the span, so membership includes the stop; two spans overlap only if they share
text.
-/

namespace NovelScript

structure Span where
  start : Position
  stop : Position
  deriving DecidableEq, Repr

namespace Span

instance : Inhabited Span := ⟨⟨.origin, .origin⟩⟩

def emptyAt (position : Position) : Span := ⟨position, position⟩

def isEmpty (span : Span) : Bool := span.start.offset == span.stop.offset

/-- Whether `position` lies on the span, its stop included. -/
def contains (span : Span) (position : Position) : Bool :=
  span.start.offset ≤ position.offset && position.offset ≤ span.stop.offset

def overlaps (left right : Span) : Bool :=
  left.start.offset < right.stop.offset && right.start.offset < left.stop.offset

def cover (left right : Span) : Span :=
  ⟨left.start.min right.start, left.stop.max right.stop⟩

def boundingBox : List Span → Option Span
  | [] => none
  | first :: rest => some (rest.foldl cover first)

/-- The text of `source` under the span, empty if its ends are not boundaries in order. -/
def textIn (span : Span) (source : List Char) : List Char :=
  Text.slice source span.start.offset span.stop.offset

def display (span : Span) : String := s!"{span.start.display}..{span.stop.display}"

end Span

end NovelScript
