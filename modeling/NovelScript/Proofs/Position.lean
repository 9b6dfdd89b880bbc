import NovelScript.LineMap

/-!
# Positions by line map

A position is reached in two ways: by moving over a text character by character, or by looking its
offset up among the line starts.  Both agree at every character boundary.
-/

namespace NovelScript

open Text

/-- An offset at which a character of the text starts, or the text ends. -/
def Text.IsBoundary (text : List Char) (offset : Nat) : Prop :=
  ∃ before after, text = before ++ after ∧ byteLength before = offset

namespace Position

theorem compare_of_offset_lt {first second : Position} (before : first.offset < second.offset) :
    first.compare second = .lt ∧ second.compare first = .gt := by
  simp [compare, Nat.compare_eq_lt.2 before, Nat.compare_eq_gt.2 before, Ordering.then]

theorem compare_self (position : Position) : position.compare position = .eq := by
  simp [compare, Ordering.then]

theorem precedes_iff {first second : Position} :
    first.precedes second = true ↔
      first.offset < second.offset ∨ first.offset = second.offset ∧
        (first.line < second.line ∨ first.line = second.line ∧ first.column ≤ second.column) := by
  unfold precedes compare
  rcases Nat.lt_trichotomy first.offset second.offset with before | same | behind
  · simp [Nat.compare_eq_lt.2 before, Ordering.then, before]
  · rcases Nat.lt_trichotomy first.line second.line with above | line | below
    · simp [same, Nat.compare_eq_lt.2 above, Ordering.then, above]
    · rw [same, line]
      simp [Ordering.then, Nat.compare_eq_gt]
    · simp [same, Nat.compare_eq_gt.2 below, Ordering.then]
      omega
  · simp [Nat.compare_eq_gt.2 behind, Ordering.then]
    omega

theorem compare_eq_iff {first second : Position} :
    first.compare second = .eq ↔ first = second := by
  obtain ⟨line, column, offset⟩ := first
  obtain ⟨line', column', offset'⟩ := second
  simp only [compare, Ordering.then_eq_eq, Nat.compare_eq_eq, mk.injEq]
  omega

theorem precedes_antisymm {first second : Position} (one : first.precedes second = true)
    (two : second.precedes first = true) : first = second := by
  obtain ⟨line, column, offset⟩ := first
  obtain ⟨line', column', offset'⟩ := second
  simp only [precedes_iff, mk.injEq] at *
  omega

theorem precedes_trans {first second third : Position} (one : first.precedes second = true)
    (two : second.precedes third = true) : first.precedes third = true := by
  rw [precedes_iff] at *
  omega

theorem precedes_total (first second : Position) :
    (first.precedes second || second.precedes first) = true := by
  rw [Bool.or_eq_true, precedes_iff, precedes_iff]
  omega

theorem after_line (position : Position) (text : List Char) :
    (position.after text).line = position.line + text.count '\n' := by
  induction text generalizing position with
  | nil => rfl
  | cons character rest ih =>
      rw [after_cons, ih, List.count_cons]
      by_cases newline : character = '\n'
      · simp only [step, newline, if_true, BEq.rfl]
        omega
      · simp [step, newline]

/-- Moving over a text never leads back. -/
theorem after_max (position : Position) (text : List Char) :
    (position.after text).max position = position.after text := by
  unfold max
  cases text with
  | nil => exact ite_self position
  | cons character rest =>
      have further : position.offset < (position.after (character :: rest)).offset := by
        have := character.utf8Size_pos
        rw [after_offset, byteLength_cons]
        omega
      exact if_pos (compare_of_offset_lt further).2

end Position

namespace LineMap

private theorem lineBefore_lineStartsFrom (text : List Char) (limit line start offset : Nat)
    (beyond : limit ≤ offset) :
    lineBefore limit line start (lineStartsFrom offset text) = (line, start) := by
  induction text generalizing offset with
  | nil => rfl
  | cons character rest ih =>
      have positive := character.utf8Size_pos
      simp only [lineStartsFrom]
      split
      · simp only [lineBefore]
        rw [if_neg (by omega)]
      · exact ih (offset + character.utf8Size) (by omega)

private theorem lineBefore_after (position : Position) (start : Nat) (first second : List Char)
    (begins : start + position.column = position.offset) :
    ∃ behind, behind + (position.after first).column = (position.after first).offset ∧
      lineBefore (position.after first).offset position.line start
        (lineStartsFrom position.offset (first ++ second)) =
          ((position.after first).line, behind) := by
  induction first generalizing position start with
  | nil =>
      refine ⟨start, begins, ?_⟩
      exact lineBefore_lineStartsFrom second position.offset position.line start position.offset
        (Nat.le_refl _)
  | cons character rest ih =>
      have offset : (position.step character).offset = position.offset + character.utf8Size :=
        Position.step_offset position character
      simp only [List.cons_append, lineStartsFrom, Position.after_cons]
      by_cases newline : character = '\n'
      · have size : character.utf8Size = 1 := by rw [newline]; rfl
        have column : (position.step character).column = 0 := by simp [Position.step, newline]
        have line : (position.step character).line = position.line + 1 := by
          simp [Position.step, newline]
        obtain ⟨behind, ends, found⟩ :=
          ih (position.step character) (position.step character).offset (by omega)
        refine ⟨behind, ends, ?_⟩
        have reached :
            position.offset + character.utf8Size ≤ ((position.step character).after rest).offset := by
          rw [Position.after_offset, offset]
          omega
        rw [line, offset] at found
        rw [if_pos newline, lineBefore, if_pos reached]
        exact found
      · have column :
            (position.step character).column = position.column + character.utf8Size := by
          simp [Position.step, newline]
        have line : (position.step character).line = position.line := by
          simp [Position.step, newline]
        obtain ⟨behind, ends, found⟩ := ih (position.step character) start (by omega)
        refine ⟨behind, ends, ?_⟩
        rw [line, offset] at found
        rw [if_neg newline]
        exact found

/-- Looking up the offset behind a first part of a text gives the position that this part leads
to. -/
theorem positionAt_byteLength (first second : List Char) :
    (ofText (first ++ second)).positionAt (byteLength first) = Position.origin.after first := by
  obtain ⟨start, begins, found⟩ := lineBefore_after .origin 0 first second rfl
  have offset : (Position.origin.after first).offset = byteLength first := by
    simp [Position.origin]
  have inside : Nat.min (byteLength first) (byteLength (first ++ second)) = byteLength first := by
    apply Nat.min_eq_left
    simp
  rw [offset] at found begins
  simp only [positionAt, ofText]
  rw [inside]
  simp only [Position.origin] at found begins offset ⊢
  rw [found]
  have column : byteLength first - start = (Position.after ⟨0, 0, 0⟩ first).column := by omega
  simp only [column]
  exact congrArg (Position.mk _ _) offset.symm

end LineMap

end NovelScript
