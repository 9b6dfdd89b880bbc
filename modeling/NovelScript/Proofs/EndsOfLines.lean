import NovelScript.Proofs.Recovery
import NovelScript.Proofs.SingleErrors

/-!
# Ends of lines

However a cursor came to its place, in the middle of a line or in front of its end, requiring the
end of the line leaves it at the start of the next one, or at the end of the input.  What it passes
over is an error once.  No statement but a label reads as far as the end of its line, so what is
passed over behind a statement is of the statement's own line.
-/

namespace NovelScript

namespace Grammar

/-- A rule never puts a token back. -/
theorem IsRule.advances {α : Type} {rule : Rule α} (is : IsRule rule) : rule.parse.Advances := by
  induction is with
  | literal => exact literal_advances
  | parenthesized => exact parenthesized_advances
  | reference => exact reference_advances
  | python => exact python_advances
  | assignment operators _ _ before behind => exact assignment_advances operators before behind
  | define => exact define_advances
  | defaultValue => exact defaultValue_advances
  | label => exact fun cursor => labelWith_advances (bodiesWithin cursor.levels) cursor
  | jump => exact jump_advances
  | call => exact call_advances
  | «return» => exact return_advances
  | pass => exact pass_advances
  | pause => exact pause_advances
  | pythonLine => exact pythonLine_advances
  | statement => exact fun cursor => statementWith_advances (bodiesWithin cursor.levels) cursor
  | choice _ ih => exact Rule.choice_advances ih

end Grammar

namespace Cursor

open Grammar

/-! ## Cursors that can be reached -/

/-- What can be done with a cursor: its own operations, and anything that the grammar reads. -/
inductive Step : Cursor → Cursor → Prop
  | advance (cursor : Cursor) : Step cursor cursor.advance.2
  | requireToken (kind : Kind) (cursor : Cursor) : Step cursor (cursor.requireToken kind).2
  | requireName (cursor : Cursor) : Step cursor cursor.requireName.2
  | requireAny (kinds : List Kind) (cursor : Cursor) : Step cursor (cursor.requireAny kinds).2
  | optionalToken (kind : Kind) (cursor : Cursor) : Step cursor (cursor.optionalToken kind).2
  | expectEndOfLine (cursor : Cursor) : Step cursor cursor.expectEndOfLine.2
  | skipLine (cursor : Cursor) : Step cursor cursor.skipLine
  | skipRestOfLine (cursor : Cursor) : Step cursor cursor.skipRestOfLine
  | skipEmptyLines (cursor : Cursor) : Step cursor cursor.skipEmptyLines
  | skipBlock (indent : Nat) (cursor : Cursor) : Step cursor (cursor.skipBlock indent)
  | enterNested (cursor : Cursor) : Step cursor cursor.enterNested.2
  | leaveNested (cursor : Cursor) : Step cursor cursor.leaveNested
  | record (problem : ParseProblem) (expected : List Kind) (cursor : Cursor) :
      Step cursor (cursor.record problem expected)
  | parse {α : Type} {rule : Rule α} (is : IsRule rule) (cursor : Cursor) :
      Step cursor (rule.parse cursor).2
  | require {α : Type} {rule : Rule α} (is : IsRule rule) (cursor : Cursor) :
      Step cursor (rule.require cursor).2
  | optional {α : Type} {rule : Rule α} (is : IsRule rule) (cursor : Cursor) :
      Step cursor (rule.optional cursor).2
  | block (parent : Option Nat) (cursor : Cursor) : Step cursor (block parent cursor).2

theorem Step.suffix {before after : Cursor} (step : Step before after) :
    after.upcoming <:+ before.upcoming := by
  cases step with
  | advance => simpa using List.tail_suffix before.upcoming
  | requireToken kind => exact Parse.token_advances kind before
  | requireName => exact Parse.name_advances before
  | requireAny kinds => exact Parse.anyToken_advances kinds before
  | optionalToken kind => exact Parse.tokenIf_advances kind before
  | expectEndOfLine => exact before.expectEndOfLine_suffix
  | skipLine => exact before.skipLine_suffix
  | skipRestOfLine => exact before.skipRestOfLine_suffix
  | skipEmptyLines => exact before.skipEmptyLines_suffix
  | skipBlock indent => exact before.skipBlock_suffix indent
  | enterNested => exact before.enterNested_upcoming ▸ List.suffix_rfl
  | leaveNested => exact List.suffix_rfl
  | record => exact List.suffix_rfl
  | parse is => exact is.advances before
  | require is => exact Rule.require_advances is.advances before
  | optional is => exact Rule.optional_advances is.advances before
  | block parent => exact blockWith_suffix (bodiesWithin before.levels) parent before

/-- What can be reached over the tokens of a text. -/
inductive Reached (source : List Char) : Cursor → Prop
  | start : Reached source (.ofTokens source (Token.ofText source))
  | step {before after : Cursor} (reached : Reached source before) (step : Step before after) :
      Reached source after

theorem Reached.suffix {source : List Char} {cursor : Cursor} (reached : Reached source cursor) :
    cursor.upcoming <:+ Token.visible source := by
  induction reached with
  | start => exact List.suffix_rfl
  | step _ step ih => exact step.suffix.trans ih

theorem Reached.wellFormed {source : List Char} {cursor : Cursor}
    (reached : Reached source cursor) : ∀ token ∈ cursor.upcoming, token.WellFormed :=
  fun token member => Token.visible_wellFormed token (reached.suffix.subset member)

/-! ## The rest of a line -/

/-- Tokens come apart into those of the line in front, the newline that ends it, if there is one,
and those behind it. -/
structure LineSplit (tokens left ends behind : List Token) : Prop where
  split : tokens = left ++ (ends ++ behind)
  inside : ∀ token ∈ left, token.kind ≠ .newline
  ends : (∃ newline, newline.kind = .newline ∧ ends = [newline]) ∨ ends = [] ∧ behind = []

theorem exists_lineSplit (tokens : List Token) :
    ∃ left ends behind, LineSplit tokens left ends behind := by
  have whole : tokens.takeWhile (·.kind != .newline) ++ tokens.dropWhile (·.kind != .newline) =
      tokens := List.takeWhile_append_dropWhile
  have inside (token : Token) (member : token ∈ tokens.takeWhile (·.kind != .newline)) :
      token.kind ≠ .newline := by
    simpa using List.all_eq_true.1 List.all_takeWhile token member
  cases rest : tokens.dropWhile (·.kind != .newline) with
  | nil =>
      rw [rest] at whole
      exact ⟨_, [], [], whole.symm, inside, .inr ⟨rfl, rfl⟩⟩
  | cons newline behind =>
      rw [rest] at whole
      have stop := List.head?_dropWhile_not (·.kind != .newline) tokens
      rw [rest] at stop
      exact ⟨_, [newline], behind, whole.symm, inside, .inl ⟨newline, by simpa using stop, rfl⟩⟩

namespace LineSplit

variable {tokens left ends behind : List Token}

theorem lineEnd (line : LineSplit tokens left ends behind)
    (proper : ∀ token ∈ tokens, token.WellFormed) : LineEnd (ends ++ behind) := by
  refine .of_newline (fun token member => proper token ?_) fun token first => ?_
  · exact line.split ▸ List.mem_append_right left member
  · rcases line.ends with ⟨newline, isNewline, rfl⟩ | ⟨rfl, rfl⟩
    · obtain rfl : newline = token := by simpa using first
      exact isNewline
    · simp at first

theorem hasKind_eq_false (line : LineSplit tokens left ends behind)
    (proper : ∀ token ∈ tokens, token.WellFormed) :
    ∀ token ∈ left, token.hasKind .newline = false := by
  intro token member
  have wellFormed := proper token (line.split ▸ List.mem_append_left _ member)
  rw [Bool.eq_false_iff, ne_eq, wellFormed.hasKind_iff (by simp) (by simp)]
  exact line.inside token member

theorem tail (line : LineSplit tokens left ends behind) : (ends ++ behind).tail = behind := by
  rcases line.ends with ⟨newline, -, rfl⟩ | ⟨rfl, rfl⟩ <;> rfl

theorem left_eq_nil_iff (line : LineSplit tokens left ends behind) :
    left = [] ↔ ∀ token ∈ tokens.head?, token.kind = .newline := by
  have split := line.split
  cases left with
  | nil =>
      rw [List.nil_append] at split
      refine iff_of_true rfl fun token first => ?_
      rcases line.ends with ⟨newline, isNewline, rfl⟩ | ⟨rfl, rfl⟩
      · obtain rfl : newline = token := by simpa [split] using first
        exact isNewline
      · simp [split] at first
  | cons token left =>
      have other := line.inside token List.mem_cons_self
      simpa [split] using other

/-- The line in front is a longer one if more of it comes first. -/
theorem append (line : LineSplit tokens left ends behind) {taken : List Token}
    (within : ∀ token ∈ taken, token.kind ≠ .newline) :
    LineSplit (taken ++ tokens) (taken ++ left) ends behind where
  split := by rw [line.split, List.append_assoc]
  inside token member := by
    rcases List.mem_append.1 member with early | late
    · exact within token early
    · exact line.inside token late
  ends := line.ends

end LineSplit

/-! ## Requiring the end of a line -/

/-- What it means to come to the end of a line: the answer, and the cursor behind. -/
structure PassesLine (cursor : Cursor) (clean : Bool) (after : Cursor) : Prop where
  /-- At the end of the input, or right behind a newline. -/
  boundary : after.upcoming = [] ∨ ∃ newline, after.current = some newline ∧
    newline.kind = .newline
  clean_iff : clean = true ↔ ∀ token ∈ cursor.upcoming.head?, token.kind = .newline
  silent_iff : after.errors = cursor.errors ↔ clean = true
  /-- Tokens in front of the end of the line are one error, which names the first of them. -/
  told : clean = false → after.errors =
    cursor.errors ++ [⟨.unexpectedEndOfLine, cursor.current, cursor.peek?, [.newline]⟩]
  /-- That the input ends is no error. -/
  inside : ∃ recorded, after.errors = cursor.errors ++ recorded ∧
    ∀ error ∈ recorded, error.problem ≠ .unexpectedEndOfFile
  /-- The tokens of the line and its newline are taken, and no more than that. -/
  takes : ∃ left ends, LineSplit cursor.upcoming left ends after.upcoming ∧
    after.consumed = cursor.consumed + (left ++ ends).length

theorem expectEndOfLine_fst {cursor : Cursor}
    (proper : ∀ token ∈ cursor.upcoming, token.WellFormed) :
    cursor.expectEndOfLine.1 = true ↔ ∀ token ∈ cursor.upcoming.head?, token.kind = .newline := by
  have answer : cursor.expectEndOfLine.1 = (!cursor.hasNext || cursor.test .newline) := by
    unfold expectEndOfLine
    cases cursor.hasNext <;> cases cursor.test .newline <;> rfl
  rw [answer]
  cases next : cursor.upcoming with
  | nil => simp [hasNext, next]
  | cons token rest =>
      have wellFormed := proper token (by simp [next])
      have newline : token.hasKind .newline = true ↔ token.kind = .newline :=
        wellFormed.hasKind_iff (by simp) (by simp)
      simp [hasNext, test, peek?, next, newline]

/-- The cursor stands behind the line that it was at, wherever in that line it was. -/
theorem expectEndOfLine_passesLine {cursor : Cursor}
    (proper : ∀ token ∈ cursor.upcoming, token.WellFormed) :
    PassesLine cursor cursor.expectEndOfLine.1 cursor.expectEndOfLine.2 := by
  obtain ⟨left, ends, behind, line⟩ := exists_lineSplit cursor.upcoming
  have within := line.hasKind_eq_false proper
  have isEnd := line.lineEnd proper
  obtain ⟨lands, -, silent⟩ := cursor.expectEndOfLine_lands line.split within isEnd
  have errors := cursor.expectEndOfLine_errors line.split within isEnd
  obtain ⟨taken, split, place⟩ := cursor.expectEndOfLine_journey.place
  rw [line.tail] at lands
  -- The last token that is taken tells the place, and it is the newline if there is one.
  have all : taken = left ++ ends := by
    rw [lands, line.split, ← List.append_assoc] at split
    exact (List.append_cancel_right split).symm
  have clean : cursor.expectEndOfLine.1 = true ↔ left = [] :=
    (expectEndOfLine_fst proper).trans line.left_eq_nil_iff.symm
  refine ⟨?_, expectEndOfLine_fst proper, silent.trans clean.symm, fun surplus => ?_,
    ⟨_, errors, fun error member => ?_⟩, left, ends, lands ▸ line,
    all ▸ congrArg Cursor.consumed place⟩
  · rcases line.ends with ⟨newline, isNewline, rfl⟩ | ⟨-, rfl⟩
    · refine .inr ⟨newline, ?_, isNewline⟩
      rw [congrArg Cursor.current place, all]
      simp
    · exact .inl lands
  · cases left with
    | nil => simp [clean.2 rfl] at surplus
    | cons token left => simp [errors, peek?, line.split]
  · obtain ⟨token, -, rfl⟩ := Option.map_eq_some_iff.1 (Option.mem_toList.1 member)
    simp

end Cursor

/-! ## Statements and their lines -/

namespace Grammar

open Cursor

/-- No statement but a label reads beyond its line. -/
theorem statementForms_lineBound {bodies : BodyReader} {rule : Rule Statement}
    (member : rule ∈ statementForms bodies) (other : rule ≠ labelWith bodies) :
    rule.parse.LineBound := by
  simp only [statementForms, List.mem_cons, List.not_mem_nil, or_false] at member
  rcases member with rfl | rfl | rfl | rfl | rfl | rfl | rfl | rfl | rfl
  · exact define_opens.lineBound.parse
  · exact defaultValue_opens.lineBound.parse
  · exact absurd rfl other
  · exact jump_opens.lineBound.parse
  · exact call_opens.lineBound.parse
  · exact return_opens.lineBound.parse
  · exact pass_opens.lineBound.parse
  · exact pause_opens.lineBound.parse
  · exact pythonLine_opens.lineBound.parse

theorem statementWith_trace {bodies : BodyReader} {cursor : Cursor} {statement : Statement}
    (read : ((statementWith bodies).parse cursor).1 = some statement)
    (plain : statement.isLabel = false) : Trace cursor ((statementWith bodies).parse cursor).2 := by
  rw [statementWith_parse] at read ⊢
  split at read
  · cases read
    cases plain
  · exact lineStatement_lineBound.parse.trace cursor

/-- A line whose statement is no label: the statement is read, and then the end of the line. -/
theorem line_eq_of_not_isLabel {bodies : BodyReader} {cursor : Cursor} {statement : Statement}
    (read : (line bodies cursor).1 = some statement) (plain : statement.isLabel = false) :
    ((statementWith bodies).parse cursor).1 = some statement ∧
      line bodies cursor =
        (some statement, ((statementWith bodies).parse cursor).2.expectEndOfLine.2) := by
  unfold line at read ⊢
  dsimp only at read ⊢
  split at read
  · next starts =>
      rw [if_pos starts]
      split at read
      · next other behind equal =>
          cases read
          simp [equal, plain]
      · cases read
  · cases read

/-- From anywhere in a script, the end of a line is found behind the line that the cursor is at, and
what is left of that line is an error.  No statement but a label takes a newline, so that the rest
of the line that is passed over behind a statement is of the statement's own line. -/
theorem expectEndOfLine_recovers {source : List Char} {cursor : Cursor}
    (reached : Reached source cursor) :
    PassesLine cursor cursor.expectEndOfLine.1 cursor.expectEndOfLine.2 ∧
    (∀ bodies, ∀ rule ∈ statementForms bodies, rule ≠ labelWith bodies →
      ∃ taken, cursor.upcoming = taken ++ (rule.parse cursor).2.upcoming ∧
        (rule.parse cursor).2.consumed = cursor.consumed + taken.length ∧
        ∀ token ∈ taken, token.kind ≠ .newline) ∧
    ∀ bodies statement, (line bodies cursor).1 = some statement → statement.isLabel = false →
      ∃ behind taken left ends, (statementWith bodies).parse cursor = (some statement, behind) ∧
        line bodies cursor = (some statement, behind.expectEndOfLine.2) ∧
        LineSplit behind.upcoming left ends behind.expectEndOfLine.2.upcoming ∧
        LineSplit cursor.upcoming (taken ++ left) ends behind.expectEndOfLine.2.upcoming := by
  have proper := reached.wellFormed
  refine ⟨expectEndOfLine_passesLine proper, fun bodies rule member other => ?_,
    fun bodies statement read plain => ?_⟩
  · exact trace_inLine ((statementForms_lineBound member other).trace cursor) proper
  · obtain ⟨parsed, whole⟩ := line_eq_of_not_isLabel read plain
    have trace := statementWith_trace parsed plain
    obtain ⟨taken, split, -, within⟩ := trace_inLine trace proper
    have later := expectEndOfLine_passesLine fun token member =>
      proper token (trace.suffix.subset member)
    obtain ⟨left, ends, rest, -⟩ := later.takes
    exact ⟨_, taken, left, ends, Prod.ext parsed rfl, whole, rest, split ▸ rest.append within⟩

private def surplusWord : Cursor :=
  (Cursor.ofTokens "pass on\npass".toList (Token.ofText "pass on\npass".toList)).advance.2

/-- A word behind a whole statement is an error. -/
theorem surplusWord_recovers :
    Reached "pass on\npass".toList surplusWord ∧
      ∃ error : ParseError, error.problem = .unexpectedEndOfLine ∧
        surplusWord.expectEndOfLine.2.errors = [error] := by
  have reached : Reached "pass on\npass".toList surplusWord := .step .start (.advance _)
  have surplus : surplusWord.expectEndOfLine.1 = false := by decide +kernel
  have none_ : surplusWord.errors = [] := by decide +kernel
  have told := (expectEndOfLine_recovers reached).1.told surplus
  rw [none_, List.nil_append] at told
  exact ⟨reached, _, rfl, told⟩

end Grammar

end NovelScript
