import NovelScript.Proofs.SkippedBlocks

/-!
# Runs over blocks

What reading a block does, line by line: blank lines are passed over, a line yields its statement,
and a label goes down to its body and comes back behind it, unless it is at the cap, where its body
is skipped.  Every block that is read has such a run, so that what holds of a block is shown by
induction on the run, in one case for each way to meet a line.
-/

namespace NovelScript.Grammar

open Cursor Statement

/-- A run over a block inside the labels `above`, with the statements that it yields and the lines
that it takes. -/
inductive BlockRun :
    List Line → Option Nat → Cursor → Cursor → List Statement → List Line → Prop
  | blank {above : List Line} {parent : Option Nat} {cursor last : Cursor}
      {statements : List Statement} {lines : List Line}
      (run : BlockRun above parent cursor.skipEmptyLines last statements lines) :
      BlockRun above parent cursor last statements lines
  | ends {above : List Line} {parent : Option Nat} {cursor : Cursor}
      (stops : ∀ token ∈ cursor.upcoming.head?, token.hasKind .newline = false)
      (done : ¬goesOn parent cursor = true) : BlockRun above parent cursor cursor [] []
  | line {above : List Line} {parent : Option Nat} {cursor last : Cursor} {line : Line}
      {tail : List Token} {statements : List Statement} {lines : List Line}
      (at_ : cursor.AtLine line tail) (depth : cursor.depth = above.length)
      (inside : ∀ column ∈ parent, column < line.indent) (other : ¬line.IsLabel)
      (rest : BlockRun above parent (ownLine cursor).2 last statements lines) :
      BlockRun above parent cursor last ((ownLine cursor).1.toList ++ statements) (line :: lines)
  | label {above : List Line} {parent : Option Nat} {cursor behind last : Cursor} {line : Line}
      {tail : List Token} {head : LabelHead} {unread : List Statement} {extent span : Span}
      {body statements : List Statement} {bodyLines lines : List Line}
      (at_ : cursor.AtLine line tail) (depth : cursor.depth = above.length)
      (inside : ∀ column ∈ parent, column < line.indent) (isLabel : line.IsLabel)
      (yields : (ownLine cursor).1 = some (.label head unread extent))
      (starts : span.start = extent.start) (room : above.length < maxNesting)
      (below : BlockRun (line :: above) (some line.indent)
        { (ownLine cursor).2 with depth := (ownLine cursor).2.depth + 1 } behind body bodyLines)
      (rest : BlockRun above parent behind.leaveNested last statements lines) :
      BlockRun above parent cursor last (.label head body span :: statements)
        (line :: (bodyLines ++ lines))
  | capped {above : List Line} {parent : Option Nat} {cursor last : Cursor} {line : Line}
      {tail : List Token} {head : LabelHead} {unread : List Statement} {extent span : Span}
      {statements : List Statement} {bodyLines lines : List Line}
      (at_ : cursor.AtLine line tail) (depth : cursor.depth = above.length)
      (inside : ∀ column ∈ parent, column < line.indent) (isLabel : line.IsLabel)
      (yields : (ownLine cursor).1 = some (.label head unread extent))
      (starts : span.start = extent.start) (full : above.length = maxNesting)
      (skips : Line.ofTokens (ownLine cursor).2.upcoming = bodyLines ++
        Line.ofTokens ((ownLine cursor).2.recordUnexpected.skipBlock line.indent).upcoming)
      (deeper : Line.Deeper line.indent bodyLines)
      (rest : BlockRun above parent ((ownLine cursor).2.recordUnexpected.skipBlock line.indent) last
        statements lines) :
      BlockRun above parent cursor last (.label head [] span :: statements)
        (line :: (bodyLines ++ lines))

/-! ## Every block has a run -/

/-- What reading the bodies of labels has to do, inside the labels `above`. -/
def RunsBodies (bodies : BodyReader) (above : List Line) : Prop :=
  ∀ indent cursor, cursor.depth + 1 = above.length →
    (∀ token ∈ cursor.upcoming, token.WellFormed) →
      (cursor.depth < maxNesting ∧ ∃ behind lines,
        (bodies.read indent cursor).2 = behind.leaveNested ∧
          BlockRun above (some indent) { cursor with depth := cursor.depth + 1 } behind
            (bodies.read indent cursor).1 lines) ∨
      cursor.depth = maxNesting ∧
        bodies.read indent cursor = ([], cursor.recordUnexpected.skipBlock indent)

/-- The step of a label. -/
private theorem label_run {bodies : BodyReader} {above : List Line} {parent : Option Nat}
    {cursor last : Cursor} {line : Line} {tail : List Token} {statements : List Statement}
    {lines : List Line} (runs : RunsBodies bodies (line :: above)) (at_ : cursor.AtLine line tail)
    (depth : cursor.depth = above.length) (inside : ∀ column ∈ parent, column < line.indent)
    (isLabel : line.IsLabel)
    (rest : BlockRun above parent (Grammar.line bodies cursor).2 last statements lines) :
    ∃ lines, BlockRun above parent cursor last
      ((Grammar.line bodies cursor).1.toList ++ statements) lines := by
  obtain ⟨head, unread, extent, span, yields, same, starts, equal⟩ :=
    line_of_isLabel bodies at_ isLabel
  obtain ⟨-, leads⟩ := ownLine_lands at_
  have proper := leads.wellFormed at_.wellFormed
  rw [equal] at rest ⊢
  rcases runs line.indent (ownLine cursor).2 (by simp [leads.depth, depth]) proper with
    ⟨room, behind, bodyLines, left, below⟩ | ⟨full, read⟩
  · rw [left] at rest
    rw [leads.depth, depth] at room
    exact ⟨_, .label at_ depth inside isLabel yields (starts.trans same.symm) room below rest⟩
  · obtain ⟨⟨bodyLines, skips, deeper⟩, -⟩ :=
      (ownLine cursor).2.recordUnexpected.skipBlock_takes line.indent proper
    rw [read] at rest ⊢
    rw [leads.depth, depth] at full
    exact ⟨_, .capped at_ depth inside isLabel yields (starts.trans same.symm) full skips deeper
      rest⟩

theorem line_leadsTo {bodies : BodyReader} (journeys : BodiesJourney bodies) {cursor : Cursor}
    (more : cursor.hasNext = true) : cursor.LeadsTo (Grammar.line bodies cursor).2 := by
  obtain ⟨head, rest, next, journey⟩ := line_takes journeys more
  exact .of_journey (.take next journey)

theorem blockWith_run {bodies : BodyReader} {above : List Line}
    (journeys : BodiesJourney bodies) (runs : ∀ label, RunsBodies bodies (label :: above))
    (parent : Option Nat) (cursor : Cursor) (depth : cursor.depth = above.length)
    (proper : ∀ token ∈ cursor.upcoming, token.WellFormed) :
    ∃ lines, BlockRun above parent cursor (blockWith bodies parent cursor).2
      (blockWith bodies parent cursor).1 lines := by
  fun_induction blockWith bodies parent cursor with
  | case1 cursor start more first rest ih =>
      have skipped := cursor.skipEmptyLines_leadsTo
      have present := hasNext_of_goesOn more
      obtain ⟨line, tail, at_⟩ :=
        exists_atLine present cursor.skipEmptyLines_stops (skipped.wellFormed proper)
      have inside (column : Nat) (member : column ∈ parent) : column < line.indent := by
        simp only [goesOn, Bool.and_eq_true] at more
        cases member
        simpa [at_.lineIndent] using more.2
      have depth_ : start.depth = above.length := skipped.depth.trans depth
      have leads : start.LeadsTo (Grammar.line bodies start).2 := line_leadsTo journeys present
      have behind := behindLine_eq bodies present
      rw [behind] at ih
      obtain ⟨lines, run⟩ := ih (leads.depth.trans depth_) (leads.wellFormed at_.wellFormed)
      simp only [first, rest]
      rw [behind]
      by_cases isLabel : line.IsLabel
      · obtain ⟨all, whole⟩ := label_run (runs line) at_ depth_ inside isLabel run
        exact ⟨all, .blank whole⟩
      · have equal := line_of_not_isLabel bodies at_ isLabel
        rw [equal] at run ⊢
        exact ⟨_, .blank (.line at_ depth_ inside isLabel run)⟩
  | case2 cursor start done => exact ⟨[], .blank (.ends cursor.skipEmptyLines_stops done)⟩

theorem bodiesWithin_run (levels : Nat) (above : List Line)
    (cap : levels + above.length = maxNesting + 1) : RunsBodies (bodiesWithin levels) above := by
  induction levels generalizing above with
  | zero =>
      intro indent cursor depth proper
      exact .inr ⟨by omega, rfl⟩
  | succ levels ih =>
      intro indent cursor depth proper
      have room : ¬cursor.depth ≥ maxNesting := by omega
      have below (label : Line) : RunsBodies (bodiesWithin levels) (label :: above) :=
        ih (label :: above) (by simp only [List.length_cons]; omega)
      obtain ⟨lines, run⟩ := blockWith_run (bodiesWithin_journey levels) below (some indent)
        { cursor with depth := cursor.depth + 1 } depth proper
      have read : (bodiesWithin (levels + 1)).read indent cursor =
          ((blockWith (bodiesWithin levels) (some indent)
            { cursor with depth := cursor.depth + 1 }).1,
          (blockWith (bodiesWithin levels) (some indent)
            { cursor with depth := cursor.depth + 1 }).2.leaveNested) := by
        simp only [bodiesWithin, enterNested, if_neg room]
      rw [read]
      exact .inl ⟨Nat.lt_of_not_ge room, _, lines, rfl, run⟩

/-- The outermost block has a run. -/
theorem block_run (cursor : Cursor) (top : cursor.depth = 0)
    (proper : ∀ token ∈ cursor.upcoming, token.WellFormed) :
    ∃ lines, BlockRun [] none cursor (block none cursor).2 (block none cursor).1 lines := by
  have runs (label : Line) : RunsBodies (bodiesWithin cursor.levels) [label] :=
    bodiesWithin_run cursor.levels [label] (by simp [Cursor.levels, top])
  exact blockWith_run (bodiesWithin_journey cursor.levels) runs none cursor top proper

/-! ## What a run does -/

theorem ownLine_journey {cursor : Cursor} {line : Line} {tail : List Token}
    (at_ : cursor.AtLine line tail) : Journey cursor (ownLine cursor).2 := by
  have more : cursor.hasNext = true := by simp [hasNext, at_.upcoming, Line.tokens]
  obtain ⟨head, rest, next, journey⟩ := ownLine_takes more
  exact .take next journey

theorem skipped_wellFormed (indent : Nat) {cursor : Cursor}
    (proper : ∀ token ∈ cursor.upcoming, token.WellFormed) :
    ∀ token ∈ (cursor.recordUnexpected.skipBlock indent).upcoming, token.WellFormed :=
  fun token member => proper token ((skipBlock_suffix indent cursor.recordUnexpected).subset member)

/-- A block that is skipped ends in front of a line that is not deeper. -/
theorem skipBlock_closes (indent : Nat) (cursor : Cursor)
    (proper : ∀ token ∈ cursor.upcoming, token.WellFormed) :
    ∀ line ∈ (Line.ofTokens (cursor.skipBlock indent).upcoming).head?, line.indent ≤ indent := by
  intro line first
  obtain ⟨-, ends⟩ := cursor.skipBlock_takes indent proper
  have found := Line.head?_ofTokens (cursor.skipBlock indent).upcoming
  rw [Option.mem_def.1 first] at found
  cases next : (cursor.skipBlock indent).upcoming with
  | nil => simp [next] at found
  | cons token rest =>
      obtain ⟨other, outside⟩ := ends token (by simp [next])
      have same : line.first = token := by simpa [next, other] using found
      rw [Line.indent, same]
      exact outside

private theorem ownLine_lines {cursor : Cursor} {line : Line} {tail : List Token}
    (at_ : cursor.AtLine line tail) :
    Line.ofTokens cursor.upcoming = line :: Line.ofTokens (ownLine cursor).2.upcoming := by
  rw [at_.lines, (ownLine_lands at_).1]

namespace BlockRun

variable {above : List Line} {parent : Option Nat} {cursor last : Cursor}
  {statements : List Statement} {lines : List Line}

theorem journey (run : BlockRun above parent cursor last statements lines) :
    Journey cursor last := by
  induction run with
  | @blank _ _ cursor _ _ _ run ih => exact cursor.skipEmptyLines_journey.trans ih
  | ends stops done => exact .stay
  | line at_ depth inside other rest ih => exact (ownLine_journey at_).trans ih
  | label at_ depth inside isLabel yields starts room below rest inner outer =>
      exact (ownLine_journey at_).trans (inner.leaveNested.trans outer)
  | capped at_ depth inside isLabel yields starts full skips deeper rest ih =>
      exact (ownLine_journey at_).trans (.record (by simp) ((skipBlock_journey _ _).trans ih))

theorem deeper (run : BlockRun above parent cursor last statements lines) :
    ∀ column ∈ parent, Line.Deeper column lines := by
  -- What is deeper than a label is deeper than the lines around it.
  have below {column : Nat} {line : Line} {bodyLines lines : List Line}
      (inside : column < line.indent) (inner : Line.Deeper line.indent bodyLines)
      (outer : Line.Deeper column lines) : Line.Deeper column (line :: (bodyLines ++ lines)) := by
    rintro other (_ | ⟨_, member⟩)
    · exact inside
    · rcases List.mem_append.1 member with member | member
      · exact Nat.lt_trans inside (inner other member)
      · exact outer other member
  induction run with
  | blank run ih => exact ih
  | ends stops done => simp [Line.Deeper]
  | line at_ depth inside other rest ih =>
      rintro column member _ (_ | ⟨_, later⟩)
      · exact inside column member
      · exact ih column member _ later
  | label at_ depth inside isLabel yields starts room below_ rest inner outer =>
      intro column member
      exact below (inside column member) (inner _ rfl) (outer column member)
  | capped at_ depth inside isLabel yields starts full skips deeper rest ih =>
      intro column member
      exact below (inside column member) deeper (ih column member)

theorem takes (run : BlockRun above parent cursor last statements lines)
    (proper : ∀ token ∈ cursor.upcoming, token.WellFormed) :
    Line.ofTokens cursor.upcoming = lines ++ Line.ofTokens last.upcoming := by
  induction run with
  | @blank _ _ cursor _ _ _ run ih =>
      rw [← cursor.skipEmptyLines_lines proper]
      exact ih (cursor.skipEmptyLines_leadsTo.wellFormed proper)
  | ends stops done => rfl
  | line at_ depth inside other rest ih =>
      have later := ih ((ownLine_lands at_).2.wellFormed proper)
      rw [ownLine_lines at_, later, List.cons_append]
  | label at_ depth inside isLabel yields starts room below rest inner outer =>
      have proper_ := (ownLine_lands at_).2.wellFormed proper
      have body := inner proper_
      have later := outer ((LeadsTo.of_journey below.journey).wellFormed proper_)
      rw [ownLine_lines at_, List.cons_append, List.append_assoc, ← later]
      exact congrArg (_ :: ·) body
  | capped at_ depth inside isLabel yields starts full skips deeper rest ih =>
      have proper_ := (ownLine_lands at_).2.wellFormed proper
      have later := ih (skipped_wellFormed _ proper_)
      rw [ownLine_lines at_, skips, later, List.cons_append, List.append_assoc]

theorem closes (run : BlockRun above parent cursor last statements lines)
    (proper : ∀ token ∈ cursor.upcoming, token.WellFormed) :
    ∀ line ∈ (Line.ofTokens last.upcoming).head?, ∃ column ∈ parent, line.indent ≤ column := by
  induction run with
  | @blank _ _ cursor _ _ _ run ih =>
      exact ih (cursor.skipEmptyLines_leadsTo.wellFormed proper)
  | @ends _ parent cursor stops done =>
      intro line first
      rw [goesOn_iff stops proper] at done
      by_contra none
      refine done ⟨line, first, fun column member => ?_⟩
      exact Nat.lt_of_not_ge fun outside => none ⟨column, member, outside⟩
  | line at_ depth inside other rest ih =>
      exact ih ((ownLine_lands at_).2.wellFormed proper)
  | label at_ depth inside isLabel yields starts room below rest inner outer =>
      have proper_ := (ownLine_lands at_).2.wellFormed proper
      exact outer ((LeadsTo.of_journey below.journey).wellFormed proper_)
  | capped at_ depth inside isLabel yields starts full skips deeper rest ih =>
      have proper_ := (ownLine_lands at_).2.wellFormed proper
      exact ih (skipped_wellFormed _ proper_)

end BlockRun

end NovelScript.Grammar
