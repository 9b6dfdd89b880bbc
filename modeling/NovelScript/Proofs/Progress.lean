import NovelScript.Proofs.Journeys

/-!
# Progress

The parser consists of loops.  Every round after which a loop goes on has taken a token, so that
each loop ends after no more rounds than there are tokens in front of it, whatever these tokens are.
The outermost block goes on until nothing is left, and the end of the input is never an error.
-/

namespace NovelScript.Grammar

open Cursor Parse

/-! ## Loops -/

/-- The loops of the parser. -/
inductive Loop where
  /-- The lines of a block, deeper than its parent if it has one. -/
  | block (parent : Option Nat)
  /-- The lines of a block that nests too deep. -/
  | skippedBlock (indent : Nat)
  | parameters
  | arguments
  /-- The attributes of a dotted name. -/
  | attributes
  /-- The tokens of a line that is given up, its end included. -/
  | line
  /-- The tokens of a line that is given up, without its end. -/
  | restOfLine
  | emptyLines

/-- One round of a list in parentheses: an item and the comma behind it. -/
def itemRound (item : Parse α) (cursor : Cursor) : Option Cursor :=
  match item cursor with
  | (none, _) => none
  | (some _, behind) =>
      if behind.test (.punctuation .comma) then some behind.advance.2 else none

/-- The last round of a list in parentheses: an item that fails, or the closing parenthesis. -/
def leaveItems (item : Parse α) (cursor : Cursor) : Cursor :=
  match item cursor with
  | (none, behind) => behind
  | (some _, behind) => (behind.requireToken (.punctuation .closeParen)).2

/-- One round of skipping tokens, as long as they are some to go on with. -/
def skipRound (goesOn : Token → Bool) (cursor : Cursor) : Option Cursor :=
  match cursor.upcoming with
  | token :: rest => if goesOn token then some (cursor.shift token rest) else none
  | [] => none

namespace Loop

/-- One round of a loop: the cursor in front of the next round, if there is one. -/
def round : Loop → Cursor → Option Cursor
  | block parent, cursor =>
      let start := cursor.skipEmptyLines
      if goesOn parent start then
        some (behindLine start (Grammar.line (bodiesWithin start.levels) start).2)
      else none
  | skippedBlock indent, cursor =>
      let start := cursor.skipEmptyLines
      if start.hasNext ∧ indent < start.lineIndent then some start.skipLine else none
  | parameters, cursor => itemRound parameter cursor
  | arguments, cursor => itemRound expression.require cursor
  | attributes, cursor =>
      match cursor.upcoming with
      | dot :: name :: rest =>
          if dot.hasKind (.punctuation .dot) ∧ name.isName then
            some ((cursor.shift dot (name :: rest)).shift name rest)
          else none
      | _ => none
  | line, cursor => skipRound (·.kind != .newline) cursor
  | restOfLine, cursor => skipRound (!·.hasKind .newline) cursor
  | emptyLines, cursor => skipRound (·.hasKind .newline) cursor

/-- What the last round of a loop does, behind which the loop does not go on. -/
def leave : Loop → Cursor → Cursor
  | block _, cursor => cursor.skipEmptyLines
  | skippedBlock _, cursor => cursor.skipEmptyLines
  | parameters, cursor => leaveItems parameter cursor
  | arguments, cursor => leaveItems expression.require cursor
  | attributes, cursor =>
      match cursor.upcoming with
      | dot :: rest =>
          if dot.hasKind (.punctuation .dot) then
            (cursor.shift dot rest).record .unexpectedToken [.identifier]
          else cursor
      | [] => cursor
  | line, cursor =>
      match cursor.upcoming with
      | token :: rest => cursor.shift token rest
      | [] => cursor
  | restOfLine, cursor => cursor
  | emptyLines, cursor => cursor

/-- The cursor behind a loop of the parser. -/
def run : Loop → Cursor → Cursor
  | block parent, cursor => (Grammar.block parent cursor).2
  | skippedBlock indent, cursor => cursor.skipBlock indent
  | parameters, cursor => (separated parameter parameter_advances cursor).2
  | arguments, cursor =>
      (separated expression.require (Rule.require_advances expression_advances) cursor).2
  | attributes, cursor => (Grammar.attributes "" cursor cursor.upcoming).2
  | line, cursor => cursor.skipLine
  | restOfLine, cursor => cursor.skipRestOfLine
  | emptyLines, cursor => cursor.skipEmptyLines

/-! ## The loops of the parser go round by round -/

private theorem separated_eq (item : Parse α) (advances : item.Advances) (cursor : Cursor) :
    (separated item advances cursor).2 =
      match itemRound item cursor with
      | some next => (separated item advances next).2
      | none => leaveItems item cursor := by
  rw [separated]
  unfold itemRound leaveItems
  split
  · next behind found => simp only [found]
  · next value behind found =>
    simp only [found]
    split <;> rfl

private theorem attributes_behind (path other : String) (cursor : Cursor) (tokens : List Token) :
    (Grammar.attributes path cursor tokens).2 = (Grammar.attributes other cursor tokens).2 := by
  fun_induction Grammar.attributes path cursor tokens generalizing other with
  | case1 => rfl
  | case2 path cursor dot isDot behind => simp [Grammar.attributes, isDot, behind]
  | case3 path cursor dot isDot name rest isName behind ih =>
      simp only [Grammar.attributes, if_pos isDot, if_pos isName]
      exact ih _
  | case4 path cursor dot isDot name rest notName behind =>
      simp [Grammar.attributes, isDot, notName, behind]
  | case5 path cursor dot rest notDot => simp [Grammar.attributes, notDot]

/-- A line of a block leaves the levels for labels inside as they are. -/
theorem levels_behindLine {start : Cursor} (more : start.hasNext = true) (levels : Nat) :
    (behindLine start (Grammar.line (bodiesWithin levels) start).2).levels = start.levels := by
  have inside := bodiesWithin_journey levels
  obtain ⟨head, rest, next, journey⟩ := line_takes inside more
  rw [behindLine_eq _ more, Cursor.levels, Cursor.levels, journey.depth_eq]
  rfl

theorem run_eq (loop : Loop) (cursor : Cursor) :
    loop.run cursor =
      match loop.round cursor with
      | some next => loop.run next
      | none => loop.leave cursor := by
  cases loop with
  | block parent =>
      -- The bodies of the round are those of the loop, as empty lines leave the depth as it is.
      have levels : cursor.skipEmptyLines.levels = cursor.levels := by
        rw [Cursor.levels, Cursor.levels, cursor.skipEmptyLines_journey.depth_eq]
      simp only [run, round, leave]
      rw [Grammar.block, blockWith]
      by_cases more : goesOn parent cursor.skipEmptyLines = true
      · simp only [if_pos more]
        rw [Grammar.block, levels_behindLine (hasNext_of_goesOn more), levels]
      · simp only [if_neg more]
  | skippedBlock indent =>
      simp only [run, round, leave]
      rw [Cursor.skipBlock]
      split <;> simp_all
  | parameters => exact separated_eq parameter _ cursor
  | arguments => exact separated_eq expression.require _ cursor
  | attributes =>
      cases next : cursor.upcoming with
      | nil => simp [run, round, leave, next, Grammar.attributes]
      | cons dot rest =>
          by_cases isDot : dot.hasKind (.punctuation .dot) = true
          · cases rest with
            | nil => simp [run, round, leave, next, Grammar.attributes, isDot]
            | cons name rest =>
                by_cases isName : name.isName = true
                · simp only [run, round, next, Grammar.attributes, isDot, isName]
                  exact attributes_behind _ _ _ _
                · simp [run, round, leave, next, Grammar.attributes, isDot, isName]
          · cases rest <;> simp [run, round, leave, next, Grammar.attributes, isDot]
  | line =>
      cases next : cursor.upcoming with
      | nil => simp [run, round, leave, skipRound, next, Cursor.skipLine, Cursor.skipLineFrom]
      | cons token rest =>
          by_cases newline : token.kind = .newline <;>
            simp [run, round, leave, skipRound, next, Cursor.skipLine, Cursor.skipLineFrom, newline]
  | restOfLine =>
      cases next : cursor.upcoming with
      | nil => simp [run, round, leave, skipRound, next, Cursor.skipRestOfLine, Cursor.skipRestFrom]
      | cons token rest =>
          cases newline : token.hasKind .newline <;>
            simp [run, round, leave, skipRound, next, Cursor.skipRestOfLine, Cursor.skipRestFrom,
              newline]
  | emptyLines =>
      cases next : cursor.upcoming with
      | nil =>
          simp [run, round, leave, skipRound, next, Cursor.skipEmptyLines, Cursor.skipNewlinesFrom]
      | cons token rest =>
          cases newline : token.hasKind .newline <;>
            simp [run, round, leave, skipRound, next, Cursor.skipEmptyLines,
              Cursor.skipNewlinesFrom, newline]

/-! ## Every round takes a token -/

private theorem itemRound_passes {item : Parse α} (bound : item.LineBound) {cursor next : Cursor}
    (going : itemRound item cursor = some next) : Passes cursor next := by
  unfold itemRound at going
  have trace := bound.trace cursor
  split at going
  · cases going
  · next value behind found =>
    rw [found] at trace
    split at going
    · next tested =>
      obtain ⟨comma, rest, upcoming, -⟩ := Cursor.next_of_peek tested
      rw [Cursor.advance_eq upcoming, Option.some_inj] at going
      subst going
      exact .intro (.of_trace trace) upcoming .stay
    · cases going

private theorem skipRound_passes {goesOn : Token → Bool} {cursor next : Cursor}
    (going : skipRound goesOn cursor = some next) : Passes cursor next := by
  unfold skipRound at going
  split at going
  · next token rest upcoming =>
    simp only [Option.ite_none_right_eq_some, Option.some_inj] at going
    obtain ⟨-, rfl⟩ := going
    exact .intro .stay upcoming .stay
  · cases going

/-- A loop goes on only behind a round that has taken a token. -/
theorem round_passes {loop : Loop} {cursor next : Cursor}
    (going : loop.round cursor = some next) : Passes cursor next := by
  cases loop with
  | block parent =>
      simp only [round, Option.ite_none_right_eq_some, Option.some_inj] at going
      obtain ⟨more, rfl⟩ := going
      have present := hasNext_of_goesOn more
      have inside := bodiesWithin_journey cursor.skipEmptyLines.levels
      obtain ⟨head, rest, upcoming, journey⟩ := line_takes inside present
      rw [behindLine_eq _ present]
      exact .intro cursor.skipEmptyLines_journey upcoming journey
  | skippedBlock indent =>
      simp only [round, Option.ite_none_right_eq_some, Option.some_inj] at going
      obtain ⟨⟨present, -⟩, rfl⟩ := going
      cases upcoming : cursor.skipEmptyLines.upcoming with
      | nil => simp [Cursor.hasNext, upcoming] at present
      | cons token rest =>
          exact .intro cursor.skipEmptyLines_journey upcoming (skipLine_takes upcoming)
  | parameters => exact itemRound_passes parameter_lineBound going
  | arguments => exact itemRound_passes (Rule.require_lineBound expression_lineBound) going
  | attributes =>
      simp only [round] at going
      split at going
      · next dot name rest upcoming =>
        simp only [Option.ite_none_right_eq_some, Option.some_inj] at going
        obtain ⟨-, rfl⟩ := going
        exact .intro .stay upcoming (.of_take rfl)
      · cases going
  | line => exact skipRound_passes going
  | restOfLine => exact skipRound_passes going
  | emptyLines => exact skipRound_passes going

/-! ## Every loop ends -/

/-- So many rounds of a loop, one after another. -/
inductive Rounds (loop : Loop) : Cursor → Nat → Cursor → Prop
  | none {cursor : Cursor} : Rounds loop cursor 0 cursor
  | more {cursor next last : Cursor} {count : Nat} (going : loop.round cursor = some next)
      (later : Rounds loop next count last) : Rounds loop cursor (count + 1) last

namespace Rounds

variable {loop : Loop} {first last : Cursor} {count : Nat}

theorem run_eq (rounds : Rounds loop first count last) : loop.run first = loop.run last := by
  induction rounds with
  | none => rfl
  | more going later ih =>
      rw [Loop.run_eq, going]
      exact ih

theorem journey (rounds : Rounds loop first count last) : Journey first last := by
  induction rounds with
  | none => exact .stay
  | more going later ih => exact (round_passes going).journey.trans ih

/-- Rounds that have taken a token each. -/
theorem takes (rounds : Rounds loop first count last) :
    ∃ tokens, count ≤ tokens.length ∧ first.upcoming = tokens ++ last.upcoming ∧
      last.consumed = first.consumed + tokens.length := by
  induction rounds with
  | none => exact ⟨[], by simp⟩
  | more going later ih =>
      obtain ⟨left, some, split, consumed⟩ := (round_passes going).takes
      obtain ⟨right, enough, splitRest, consumedRest⟩ := ih
      have positive := List.length_pos_iff.2 some
      refine ⟨left ++ right, ?_, by rw [split, splitRest, List.append_assoc], ?_⟩
      · rw [List.length_append]
        omega
      · rw [consumedRest, consumed, List.length_append, Nat.add_assoc]

end Rounds

/-- Behind some rounds a loop comes to its last one, where it does not go on. -/
theorem stops (loop : Loop) (cursor : Cursor) :
    ∃ count last, Rounds loop cursor count last ∧ loop.round last = none := by
  induction equal : cursor.upcoming.length using Nat.strongRecOn generalizing cursor with
  | ind length ih =>
    cases going : loop.round cursor with
    | none => exact ⟨0, cursor, .none, going⟩
    | some next =>
        obtain ⟨tokens, some, split, -⟩ := (round_passes going).takes
        have positive := List.length_pos_iff.2 some
        have shorter := congrArg List.length split
        rw [List.length_append] at shorter
        obtain ⟨count, last, later, done⟩ := ih next.upcoming.length (by omega) next rfl
        exact ⟨count + 1, last, .more going later, done⟩

/-- A loop ends, after no more rounds than there are tokens. -/
theorem ends (loop : Loop) (cursor : Cursor) :
    ∃ count last, Rounds loop cursor count last ∧ count ≤ cursor.upcoming.length ∧
      loop.round last = none ∧ loop.run cursor = loop.leave last := by
  obtain ⟨count, last, rounds, done⟩ := loop.stops cursor
  obtain ⟨tokens, enough, split, -⟩ := rounds.takes
  have shorter := congrArg List.length split
  rw [List.length_append] at shorter
  refine ⟨count, last, rounds, by omega, done, ?_⟩
  rw [rounds.run_eq, loop.run_eq, done]

end Loop

/-! ## Nothing is left -/

/-- The outermost block goes on to the end of the input. -/
theorem block_upcoming (cursor : Cursor) : (block none cursor).2.upcoming = [] := by
  obtain ⟨count, last, -, -, done, run⟩ := (Loop.block none).ends cursor
  have stopped : last.skipEmptyLines.hasNext = false := by
    simpa [Loop.round, goesOn] using done
  show ((Loop.block none).run cursor).upcoming = []
  rw [run, Loop.leave]
  simpa [Cursor.hasNext] using stopped

theorem block_journey (parent : Option Nat) (cursor : Cursor) :
    Journey cursor (block parent cursor).2 :=
  blockWith_journey (bodiesWithin_journey cursor.levels) parent cursor

end Grammar

open Grammar

/-- Parsing ends, whatever the tokens are.  Each loop takes a token in every round after which it
goes on, and so ends after no more rounds than there are tokens; all visible tokens of a script are
taken, and that the input ends is never an error. -/
theorem Document.ofTokens_ends (source : List Char) (tokens : List Token) :
    (∀ loop cursor next, Loop.round loop cursor = some next →
      ∃ taken, taken ≠ [] ∧ cursor.upcoming = taken ++ next.upcoming ∧
        next.consumed = cursor.consumed + taken.length) ∧
    (∀ loop cursor, ∃ count last, Loop.Rounds loop cursor count last ∧
      count ≤ cursor.upcoming.length ∧ loop.round last = none ∧
        loop.run cursor = loop.leave last) ∧
    (block none (Cursor.ofTokens source tokens)).2.upcoming = [] ∧
    (block none (Cursor.ofTokens source tokens)).2.consumed =
      (tokens.filter fun token => !token.kind.isTrivia).length ∧
    ∀ error ∈ (Document.ofTokens source tokens).2, error.problem ≠ .unexpectedEndOfFile := by
  have journey := block_journey none (Cursor.ofTokens source tokens)
  have left := block_upcoming (Cursor.ofTokens source tokens)
  refine ⟨fun _ _ _ going => (Loop.round_passes going).takes, Loop.ends, left, ?_, ?_⟩
  · obtain ⟨taken, split, consumed⟩ := journey.takes
    rw [left, List.append_nil] at split
    rw [consumed, ← split]
    exact Nat.zero_add _
  · exact journey.errors_inside (by simp [Cursor.ofTokens])

end NovelScript
