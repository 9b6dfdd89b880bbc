import NovelScript.Proofs.OwnLine

/-!
# Journeys

Whatever tokens it meets, the parser moves its cursor in two ways only: it takes the next token, or
it records an error in front of it, which is never that the input has ended.  Reading a block is a
journey of such moves, and every line of the block takes at least one token.
-/

namespace NovelScript

open Grammar

namespace Cursor

/-! ## Moves over a whole script -/

/-- One move after the other, as far as the input goes. -/
inductive Journey : Cursor → Cursor → Prop
  | stay {cursor : Cursor} : Journey cursor cursor
  | take {cursor last : Cursor} {token : Token} {rest : List Token}
      (next : cursor.upcoming = token :: rest) (later : Journey (cursor.shift token rest) last) :
      Journey cursor last
  | record {cursor last : Cursor} {problem : ParseProblem} {expected : List Kind}
      (inside : problem ≠ .unexpectedEndOfFile)
      (later : Journey (cursor.record problem expected) last) : Journey cursor last

namespace Journey

variable {first second third : Cursor}

theorem trans (one : Journey first second) (two : Journey second third) :
    Journey first third := by
  induction one with
  | stay => exact two
  | take next later ih => exact .take next (ih two)
  | record inside later ih => exact .record inside (ih two)

theorem of_trace (trace : Trace first second) : Journey first second := by
  induction trace with
  | refl => exact .stay
  | take next within later ih => exact .take next ih
  | record later ih => exact .record (by simp) ih

theorem of_take {token : Token} {rest : List Token} (next : first.upcoming = token :: rest) :
    Journey first (first.shift token rest) :=
  .take next .stay

/-- The moves of a journey are possible at any depth. -/
theorem atDepth (journey : Journey first second) (depth : Nat) :
    Journey { first with depth := depth } { second with depth := depth } := by
  induction journey with
  | stay => exact .stay
  | take next later ih => exact .take next ih
  | record inside later ih => exact .record inside ih

theorem depth_eq (journey : Journey first second) : second.depth = first.depth := by
  induction journey with
  | stay => rfl
  | take next later ih => exact ih
  | record inside later ih => exact ih

/-- A journey one level deeper is possible at this level, to which it comes back. -/
theorem leaveNested {cursor last : Cursor}
    (journey : Journey { cursor with depth := cursor.depth + 1 } last) :
    Journey cursor last.leaveNested := by
  have depth : last.depth - 1 = cursor.depth := by
    rw [journey.depth_eq]
    rfl
  have moved := journey.atDepth cursor.depth
  unfold Cursor.leaveNested
  rw [depth]
  exact moved

/-- A journey counts the tokens that it takes. -/
theorem takes (journey : Journey first second) :
    ∃ tokens, first.upcoming = tokens ++ second.upcoming ∧
      second.consumed = first.consumed + tokens.length := by
  induction journey with
  | stay => exact ⟨[], rfl, rfl⟩
  | @take cursor last token rest next later ih =>
      obtain ⟨tokens, split, count⟩ := ih
      refine ⟨token :: tokens, by rw [next, List.cons_append, ← split]; rfl, ?_⟩
      simp only [shift, List.length_cons] at count ⊢
      omega
  | record inside later ih => exact ih

/-- The tokens that a journey takes tell where it ends; all else that it changes are the errors. -/
theorem place (journey : Journey first second) :
    ∃ taken, first.upcoming = taken ++ second.upcoming ∧
      second = { first with
        upcoming := second.upcoming
        current := taken.getLast?.or first.current
        consumed := first.consumed + taken.length
        errors := second.errors } := by
  induction journey with
  | stay => exact ⟨[], rfl, rfl⟩
  | @take cursor last token rest next later ih =>
      obtain ⟨taken, split, equal⟩ := ih
      refine ⟨token :: taken, by rw [next, List.cons_append, ← split]; rfl, equal.trans ?_⟩
      have current : taken.getLast?.or (some token) = (token :: taken).getLast?.or cursor.current := by
        cases taken with
        | nil => rfl
        | cons other taken => simp [List.getLast?_cons]
      simp only [shift, current, List.length_cons]
      congr 1
      omega
  | record inside later ih => exact ih

theorem errors_inside (journey : Journey first second)
    (inside : ∀ error ∈ first.errors, error.problem ≠ .unexpectedEndOfFile) :
    ∀ error ∈ second.errors, error.problem ≠ .unexpectedEndOfFile := by
  induction journey with
  | stay => exact inside
  | take next later ih => exact ih inside
  | record other later ih =>
      refine ih fun error member => ?_
      rcases List.mem_append.1 member with before | last
      · exact inside error before
      · obtain rfl := List.mem_singleton.1 last
        exact other

end Journey

/-- A journey that takes a token at least. -/
inductive Passes (first last : Cursor) : Prop
  | intro {place : Cursor} {token : Token} {rest : List Token} (before : Journey first place)
      (next : place.upcoming = token :: rest) (later : Journey (place.shift token rest) last)

namespace Passes

variable {first last : Cursor}

theorem journey (passes : Passes first last) : Journey first last := by
  cases passes with
  | intro before next later => exact before.trans (.take next later)

theorem takes (passes : Passes first last) :
    ∃ tokens, tokens ≠ [] ∧ first.upcoming = tokens ++ last.upcoming ∧
      last.consumed = first.consumed + tokens.length := by
  cases passes with
  | @intro place token rest before next later =>
      obtain ⟨left, split, count⟩ := before.takes
      obtain ⟨right, splitRest, countRest⟩ := later.takes
      refine ⟨left ++ token :: right, by simp, ?_, ?_⟩
      · rw [shift_upcoming] at splitRest
        rw [split, next, splitRest, List.append_assoc, List.cons_append]
      · simp only [shift, List.length_append, List.length_cons] at countRest ⊢
        omega

end Passes

/-! ## Skipping -/

theorem advance_journey {cursor : Cursor} (more : cursor.hasNext = true) :
    Journey cursor cursor.advance.2 := by
  cases next : cursor.upcoming with
  | nil => simp [hasNext, next] at more
  | cons token rest =>
      rw [advance_eq next]
      exact .of_take next

theorem skipLineFrom_journey (cursor : Cursor) (tokens : List Token)
    (equal : cursor.upcoming = tokens) : Journey cursor (cursor.skipLineFrom tokens) := by
  induction tokens generalizing cursor with
  | nil => exact .stay
  | cons token rest ih =>
      unfold skipLineFrom
      dsimp only
      split
      · exact .of_take equal
      · exact .take equal (ih (cursor.shift token rest) rfl)

theorem skipLine_journey (cursor : Cursor) : Journey cursor cursor.skipLine :=
  skipLineFrom_journey cursor cursor.upcoming rfl

/-- Skipping a line takes the first token of the line at least. -/
theorem skipLine_takes {cursor : Cursor} {token : Token} {rest : List Token}
    (next : cursor.upcoming = token :: rest) :
    Journey (cursor.shift token rest) cursor.skipLine := by
  unfold skipLine
  rw [next, skipLineFrom]
  split
  · exact .stay
  · exact skipLineFrom_journey _ rest rfl

theorem skipNewlinesFrom_journey (cursor : Cursor) (tokens : List Token)
    (equal : cursor.upcoming = tokens) : Journey cursor (cursor.skipNewlinesFrom tokens) := by
  induction tokens generalizing cursor with
  | nil => exact .stay
  | cons token rest ih =>
      unfold skipNewlinesFrom
      split
      · exact .take equal (ih (cursor.shift token rest) rfl)
      · exact .stay

theorem skipEmptyLines_journey (cursor : Cursor) : Journey cursor cursor.skipEmptyLines :=
  skipNewlinesFrom_journey cursor cursor.upcoming rfl

theorem expectEndOfLine_journey (cursor : Cursor) : Journey cursor cursor.expectEndOfLine.2 := by
  unfold expectEndOfLine
  split
  · exact .stay
  · next more =>
    split
    · exact advance_journey (by simpa using more)
    · exact .record (by simp) (skipLine_journey _)

theorem skipBlock_journey (indent : Nat) (cursor : Cursor) :
    Journey cursor (cursor.skipBlock indent) := by
  fun_induction skipBlock indent cursor with
  | case1 cursor line more ih =>
      exact cursor.skipEmptyLines_journey.trans (line.skipLine_journey.trans ih)
  | case2 cursor line done => exact cursor.skipEmptyLines_journey

end Cursor

namespace Grammar

open Cursor Parse

/-! ## Lines -/

/-- A statement takes the token that opens it, and the rest of it is read behind that token. -/
theorem lineStatement_takes {cursor : Cursor} (starts : lineStatement.starts cursor = true) :
    ∃ head rest, cursor.upcoming = head :: rest ∧
      Trace (cursor.shift head rest) (lineStatement.parse cursor).2 := by
  obtain ⟨kind, -, rule, opens, found, tested⟩ := lineStatement_form starts
  obtain ⟨head, rest, next, has⟩ := next_of_peek tested
  obtain ⟨body, rfl, reads⟩ := opens.reads
  have taken := token_eq next has
  refine ⟨head, rest, next, ?_⟩
  rw [show lineStatement.parse cursor = _ from Rule.choice_some found]
  show Trace (cursor.shift head rest) ((token kind >>= body) cursor).2
  rw [bind_some (congrArg Prod.fst taken), taken]
  exact (reads head).bound.trace _

/-- Reading a line takes the first token of the line at least. -/
theorem ownLine_takes {cursor : Cursor} (more : cursor.hasNext = true) :
    ∃ head rest, cursor.upcoming = head :: rest ∧
      Journey (cursor.shift head rest) (ownLine cursor).2 := by
  unfold ownLine
  split
  · next starts =>
    obtain ⟨head, rest, next, trace⟩ := lineStatement_takes starts
    exact ⟨head, rest, next, (Journey.of_trace trace).trans (expectEndOfLine_journey _)⟩
  · cases next : cursor.upcoming with
    | nil => simp [hasNext, next] at more
    | cons head rest => exact ⟨head, rest, rfl, skipLine_takes next⟩

/-- Nothing is left for the fallback of a line that takes nothing. -/
theorem behindLine_eq (bodies : BodyReader) {cursor : Cursor} (more : cursor.hasNext = true) :
    behindLine cursor (line bodies cursor).2 = (line bodies cursor).2 := by
  obtain ⟨head, rest, next, journey⟩ := ownLine_takes more
  obtain ⟨tokens, own, -⟩ := journey.takes
  have shorter := congrArg List.length own
  have within : (line bodies cursor).2.upcoming.length ≤ (ownLine cursor).2.upcoming.length := by
    rw [line_eq]
    split
    · next label body span behind equal =>
      rw [equal]
      exact (bodies.suffix span.start.column behind).length_le
    · exact Nat.le_refl _
  rw [shift_upcoming, List.length_append] at shorter
  rw [behindLine, if_pos]
  rw [next, List.length_cons]
  omega

/-! ## Blocks -/

/-- Bodies that are read in moves. -/
def BodiesJourney (bodies : BodyReader) : Prop :=
  ∀ indent cursor, Journey cursor (bodies.read indent cursor).2

/-- The step of a line, with the body of a label. -/
theorem line_takes {bodies : BodyReader} (inside : BodiesJourney bodies) {cursor : Cursor}
    (more : cursor.hasNext = true) :
    ∃ head rest, cursor.upcoming = head :: rest ∧
      Journey (cursor.shift head rest) (line bodies cursor).2 := by
  obtain ⟨head, rest, next, own⟩ := ownLine_takes more
  refine ⟨head, rest, next, ?_⟩
  rw [line_eq]
  split
  · next label body span behind equal =>
    rw [equal] at own
    exact own.trans (inside _ behind)
  · exact own

theorem hasNext_of_goesOn {parent : Option Nat} {cursor : Cursor}
    (more : goesOn parent cursor = true) : cursor.hasNext = true := by
  simp only [goesOn, Bool.and_eq_true] at more
  exact more.1

/-- The run over a block. -/
theorem blockWith_journey {bodies : BodyReader} (inside : BodiesJourney bodies)
    (parent : Option Nat) (cursor : Cursor) :
    Journey cursor (blockWith bodies parent cursor).2 := by
  fun_induction blockWith bodies parent cursor with
  | case1 cursor start more first rest ih =>
      have present := hasNext_of_goesOn more
      obtain ⟨head, tail, next, journey⟩ := line_takes inside present
      rw [behindLine_eq bodies present] at ih
      simp only [rest]
      rw [behindLine_eq bodies present]
      exact cursor.skipEmptyLines_journey.trans (.take next (journey.trans ih))
  | case2 cursor start done => exact cursor.skipEmptyLines_journey

theorem bodiesWithin_journey (levels : Nat) : BodiesJourney (bodiesWithin levels) := by
  induction levels with
  | zero =>
      intro indent cursor
      exact .record (by simp) (skipBlock_journey indent cursor.recordUnexpected)
  | succ levels ih =>
      intro indent cursor
      by_cases full : cursor.depth ≥ maxNesting
      · simp only [bodiesWithin, enterNested, if_pos full]
        exact .record (by simp) (skipBlock_journey indent cursor.recordUnexpected)
      · simp only [bodiesWithin, enterNested, if_neg full]
        exact (blockWith_journey ih (some indent) _).leaveNested

end Grammar

end NovelScript
