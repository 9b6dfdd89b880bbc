import NovelScript.Proofs.Chunks

/-!
# Skipped blocks

A block ends at the same place whether it is read or skipped.  A body inside of it ends no later
than the block does, so that skipping on from the end of the body is skipping on from the line of its
label; and the end of a line is where skipping the line leads, whatever is read of the line.
-/

namespace NovelScript

namespace Cursor

/-! ## Same place -/

/-- Journeys from one cursor that leave the same tokens differ in their errors only. -/
theorem Journey.eq_of_upcoming {first second third : Cursor} (one : Journey first second)
    (two : Journey first third) (same : second.upcoming = third.upcoming) :
    second = { third with errors := second.errors } := by
  obtain ⟨taken, split, equal⟩ := one.place
  obtain ⟨other, splitOther, equalOther⟩ := two.place
  rw [same, splitOther] at split
  obtain rfl := List.append_cancel_right split
  rw [equal, equalOther, same]

private theorem skipNewlinesFrom_upcoming (cursor : Cursor) (tokens : List Token)
    (equal : cursor.upcoming = tokens) :
    (cursor.skipNewlinesFrom tokens).upcoming = tokens.dropWhile (·.hasKind .newline) := by
  induction tokens generalizing cursor with
  | nil => exact equal
  | cons token rest ih =>
      rw [skipNewlinesFrom, List.dropWhile_cons]
      split
      · exact ih (cursor.shift token rest) rfl
      · exact equal

theorem skipEmptyLines_upcoming (cursor : Cursor) :
    cursor.skipEmptyLines.upcoming = cursor.upcoming.dropWhile (·.hasKind .newline) :=
  skipNewlinesFrom_upcoming cursor cursor.upcoming rfl

theorem skipEmptyLines_of_stops {cursor : Cursor}
    (stops : ∀ token ∈ cursor.upcoming.head?, token.hasKind .newline = false) :
    cursor.skipEmptyLines = cursor := by
  rw [skipEmptyLines]
  cases next : cursor.upcoming with
  | nil => rfl
  | cons token rest =>
      have other : token.hasKind .newline = false := stops token (by simp [next])
      rw [skipNewlinesFrom, if_neg (by simp [other])]

private theorem skipLineFrom_upcoming_congr {one two : Cursor} (tokens : List Token)
    (here : one.upcoming = tokens) (there : two.upcoming = tokens) :
    (one.skipLineFrom tokens).upcoming = (two.skipLineFrom tokens).upcoming := by
  induction tokens generalizing one two with
  | nil => exact here.trans there.symm
  | cons token rest ih =>
      simp only [skipLineFrom]
      split
      · rfl
      · exact ih rfl rfl

theorem skipLine_upcoming_congr {one two : Cursor} (same : one.upcoming = two.upcoming) :
    one.skipLine.upcoming = two.skipLine.upcoming := by
  rw [skipLine, skipLine, ← same]
  exact skipLineFrom_upcoming_congr one.upcoming rfl same.symm

theorem goesOn_congr {parent : Option Nat} {one two : Cursor} (same : one.upcoming = two.upcoming) :
    Grammar.goesOn parent one = Grammar.goesOn parent two := by
  have column : one.lineIndent = two.lineIndent := by rw [lineIndent, lineIndent, peek?, peek?, same]
  rw [Grammar.goesOn, Grammar.goesOn, hasNext, hasNext, same, column]

/-! ## Skipping -/

/-- Where a skipped block ends depends on the tokens that are left alone. -/
theorem skipBlock_upcoming_congr (indent : Nat) {one two : Cursor}
    (same : one.upcoming = two.upcoming) :
    (one.skipBlock indent).upcoming = (two.skipBlock indent).upcoming := by
  have started (one two : Cursor) (same : one.upcoming = two.upcoming) :
      one.skipEmptyLines.upcoming = two.skipEmptyLines.upcoming := by
    rw [skipEmptyLines_upcoming, skipEmptyLines_upcoming, same]
  fun_induction skipBlock indent one generalizing two with
  | case1 one start more =>
      rename_i ih
      have goes : Grammar.goesOn (some indent) start = true := by simpa [Grammar.goesOn] using more
      rw [Grammar.skipBlock_eq indent two, ← goesOn_congr (started one two same), if_pos goes]
      exact ih (skipLine_upcoming_congr (started one two same))
  | case2 one start =>
      rename_i done
      have ends : ¬Grammar.goesOn (some indent) start = true := by
        simpa [Grammar.goesOn] using done
      rw [Grammar.skipBlock_eq indent two, ← goesOn_congr (started one two same), if_neg ends]
      exact started one two same

theorem skipBlock_errors (indent : Nat) (cursor : Cursor) :
    (cursor.skipBlock indent).errors = cursor.errors := by
  fun_induction skipBlock indent cursor with
  | case1 cursor start more ih =>
      exact ih.trans (start.skipLine_errors.trans cursor.skipEmptyLines_errors)
  | case2 cursor start done => exact cursor.skipEmptyLines_errors

/-- A block that is skipped from within, at a line deeper than it, ends where it does. -/
theorem skipBlock_skipBlock {outer inner : Nat} (deeper : outer ≤ inner) (cursor : Cursor) :
    (cursor.skipBlock inner).skipBlock outer = cursor.skipBlock outer := by
  fun_induction skipBlock inner cursor with
  | case1 cursor start more ih =>
      have goes : Grammar.goesOn (some outer) start = true := by
        simpa [Grammar.goesOn] using ⟨more.1, Nat.lt_of_le_of_lt deeper more.2⟩
      rw [ih, Grammar.skipBlock_eq outer cursor, if_pos goes]
  | case2 cursor start done =>
      have again : start.skipEmptyLines = start :=
        skipEmptyLines_of_stops cursor.skipEmptyLines_stops
      rw [Grammar.skipBlock_eq outer start, Grammar.skipBlock_eq outer cursor, again]

/-- A skipped block takes the lines deeper than it, up to the first one that is not. -/
theorem skipBlock_takes (indent : Nat) (cursor : Cursor)
    (proper : ∀ token ∈ cursor.upcoming, token.WellFormed) :
    (∃ lines, Line.ofTokens cursor.upcoming =
        lines ++ Line.ofTokens (cursor.skipBlock indent).upcoming ∧ Line.Deeper indent lines) ∧
      ∀ token ∈ (cursor.skipBlock indent).upcoming.head?,
        token.kind ≠ .newline ∧ token.start.column ≤ indent := by
  fun_induction skipBlock indent cursor with
  | case1 cursor start more ih =>
      have wellFormed := cursor.skipEmptyLines_leadsTo.wellFormed proper
      obtain ⟨line, tail, at_⟩ := exists_atLine more.1 cursor.skipEmptyLines_stops wellFormed
      obtain ⟨⟨lines, split, deeper⟩, ends⟩ := ih (start.skipLine_leadsTo.wellFormed wellFormed)
      refine ⟨⟨line :: lines, ?_, ?_⟩, ends⟩
      · rw [← cursor.skipEmptyLines_lines proper, at_.lines, ← at_.skipLine_upcoming, split,
          List.cons_append]
      · rintro other (_ | ⟨_, member⟩)
        · exact at_.lineIndent ▸ more.2
        · exact deeper other member
  | case2 cursor start done =>
      refine ⟨⟨[], (cursor.skipEmptyLines_lines proper).symm, by simp [Line.Deeper]⟩, ?_⟩
      intro token first
      obtain ⟨rest, next⟩ := List.head?_eq_some_iff.1 first
      have stops := cursor.skipEmptyLines_stops token first
      refine ⟨Token.kind_ne_of_hasKind stops, ?_⟩
      simpa [hasNext, lineIndent, peek?, next] using done

end Cursor

namespace Grammar

open Cursor

/-! ## Reading -/

/-- Bodies that end where skipping them would. -/
def EndsAsSkipped (bodies : BodyReader) : Prop :=
  ∀ indent cursor, (∀ token ∈ cursor.upcoming, token.WellFormed) →
    (bodies.read indent cursor).2.upcoming = (cursor.skipBlock indent).upcoming

/-- Behind a line of a block, with its body if it has one, the block ends where it does behind the
line alone. -/
theorem line_skipBlock {bodies : BodyReader} (ends : EndsAsSkipped bodies) {cursor : Cursor}
    {line : Line} {tail : List Token} (at_ : cursor.AtLine line tail) {indent : Nat}
    (inside : indent < line.indent) :
    ((Grammar.line bodies cursor).2.skipBlock indent).upcoming =
      (cursor.skipLine.skipBlock indent).upcoming := by
  obtain ⟨lands, leads⟩ := ownLine_lands at_
  have behind : ((ownLine cursor).2.skipBlock indent).upcoming =
      (cursor.skipLine.skipBlock indent).upcoming :=
    skipBlock_upcoming_congr indent (lands.trans at_.skipLine_upcoming.symm)
  by_cases isLabel : line.IsLabel
  · obtain ⟨head, unread, extent, span, -, -, -, equal⟩ := line_of_isLabel bodies at_ isLabel
    have body := ends line.indent (ownLine cursor).2 (leads.wellFormed at_.wellFormed)
    rw [equal]
    refine (skipBlock_upcoming_congr indent body).trans ?_
    rw [skipBlock_skipBlock inside.le]
    exact behind
  · rw [line_of_not_isLabel bodies at_ isLabel]
    exact behind

/-- The run over a block ends where skipping does. -/
theorem blockWith_skipBlock {bodies : BodyReader} (ends : EndsAsSkipped bodies) (indent : Nat)
    (cursor : Cursor) (proper : ∀ token ∈ cursor.upcoming, token.WellFormed) :
    (blockWith bodies (some indent) cursor).2.upcoming = (cursor.skipBlock indent).upcoming := by
  fun_induction blockWith bodies (some indent) cursor with
  | case1 cursor start more first rest ih =>
      have wellFormed := cursor.skipEmptyLines_leadsTo.wellFormed proper
      obtain ⟨line, tail, at_⟩ :=
        exists_atLine (hasNext_of_goesOn more) cursor.skipEmptyLines_stops wellFormed
      have inside : indent < line.indent := by
        simp only [goesOn, Bool.and_eq_true] at more
        simpa [at_.lineIndent] using more.2
      have behind := behindLine_eq bodies (hasNext_of_goesOn more)
      rw [behind] at ih
      simp only [rest]
      rw [behind, skipBlock_eq indent cursor, if_pos more, ← line_skipBlock ends at_ inside]
      exact ih fun token member => wellFormed token ((line_suffix bodies start).subset member)
  | case2 cursor start done =>
      rw [skipBlock_eq indent cursor, if_neg done]

theorem bodiesWithin_skipBlock (levels : Nat) : EndsAsSkipped (bodiesWithin levels) := by
  induction levels with
  | zero =>
      intro indent cursor proper
      exact skipBlock_upcoming_congr indent rfl
  | succ levels ih =>
      intro indent cursor proper
      by_cases full : cursor.depth ≥ maxNesting
      · simp only [bodiesWithin, enterNested, if_pos full]
        exact skipBlock_upcoming_congr indent rfl
      · simp only [bodiesWithin, enterNested, if_neg full, leaveNested_upcoming]
        have inside := blockWith_skipBlock ih indent { cursor with depth := cursor.depth + 1 } proper
        exact inside.trans (skipBlock_upcoming_congr indent rfl)

/-- Reading a block and skipping it take the same tokens, at any place of a script and at any depth,
and reach the same cursor up to the errors of the reading.  That is in front of the first line that
is not deeper than the block; a line that is read from its middle counts as one. -/
theorem block_eq_skipBlock {source : List Char} (indent : Nat) {cursor : Cursor}
    (ahead : cursor.upcoming <:+ Token.visible source) :
    (block (some indent) cursor).2 =
        { cursor.skipBlock indent with errors := (block (some indent) cursor).2.errors } ∧
      (cursor.skipBlock indent).errors = cursor.errors ∧
      (∃ lines, Line.ofTokens cursor.upcoming =
          lines ++ Line.ofTokens (cursor.skipBlock indent).upcoming ∧ Line.Deeper indent lines) ∧
      ∀ token ∈ (cursor.skipBlock indent).upcoming.head?,
        token.kind ≠ .newline ∧ token.start.column ≤ indent := by
  have proper : ∀ token ∈ cursor.upcoming, token.WellFormed :=
    fun token member => Token.visible_wellFormed token (ahead.subset member)
  have read : Journey cursor (block (some indent) cursor).2 :=
    blockWith_journey (bodiesWithin_journey cursor.levels) (some indent) cursor
  have same : (block (some indent) cursor).2.upcoming = (cursor.skipBlock indent).upcoming :=
    blockWith_skipBlock (bodiesWithin_skipBlock cursor.levels) indent cursor proper
  exact ⟨read.eq_of_upcoming (skipBlock_journey indent cursor) same, cursor.skipBlock_errors indent,
    cursor.skipBlock_takes indent proper⟩

private def brokenBody : List Char :=
  "label a\n  label b:\n      label c:\n        $ f(\n    jump 1\n\n   x\n jump d d\njump e\n".toList

/-- Behind the first line, one level below the cap. -/
private def insideBrokenBody : Cursor :=
  { (Cursor.ofTokens brokenBody (Token.ofText brokenBody)).skipLine with depth := 99 }

/-- Labels that nest too deep and lines that are broken end as they are skipped, errors or not. -/
theorem block_eq_skipBlock_brokenBody :
    insideBrokenBody.upcoming <:+ Token.visible brokenBody ∧
      (block (some 0) insideBrokenBody).2.consumed =
        (insideBrokenBody.skipBlock 0).consumed ∧
      (block (some 0) insideBrokenBody).2.errors ≠ (insideBrokenBody.skipBlock 0).errors := by
  have ahead : insideBrokenBody.upcoming <:+ Token.visible brokenBody :=
    Cursor.skipLine_suffix (Cursor.ofTokens brokenBody (Token.ofText brokenBody))
  have same := congrArg Cursor.consumed (block_eq_skipBlock 0 ahead).1
  exact ⟨ahead, same, by decide +kernel⟩

end Grammar

end NovelScript
