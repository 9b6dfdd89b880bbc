import NovelScript.Proofs.Failures
import NovelScript.Proofs.StatementAcceptance

/-!
# Single errors

An expression that is required costs a word of its language or one error.  The error is recorded
where the innermost parse fails; nothing that unwinds from there, and nothing that gives up the rest
of a line, records another.  Assignments keep to the same.
-/

namespace NovelScript

open Grammar Words

/-! ## Outcomes -/

/-- What a parse may come back with: a result that has a property and no error, or one unexpected
token. -/
structure Told {α : Type} (post : α → Prop) (cursor : Cursor) (outcome : Option α × Cursor) :
    Prop where
  trace : Cursor.Trace cursor outcome.2
  found : ∀ value, outcome.1 = some value → post value ∧ outcome.2.errors = cursor.errors
  failed : outcome.1 = none → ∃ error : ParseError,
    error.problem = .unexpectedToken ∧ outcome.2.errors = cursor.errors ++ [error]

namespace Told

variable {α : Type} {post : α → Prop} {cursor last : Cursor}

theorem result {value : α} (trace : Cursor.Trace cursor last) (holds : post value)
    (clean : last.errors = cursor.errors) : Told post cursor (some value, last) := by
  refine ⟨trace, ?_, by simp⟩
  rintro _ ⟨⟩
  exact ⟨holds, clean⟩

theorem record (expected : List Kind) :
    Told post cursor (none, cursor.record .unexpectedToken expected) :=
  ⟨.of_record expected, by simp, fun _ => ⟨_, rfl, rfl⟩⟩

theorem takeIf {post : Token → Prop} {accepts : Token → Bool} {expected : List Kind}
    (within : ∀ token, accepts token = true → token.WithinLine)
    (holds : ∀ token ∈ cursor.upcoming, accepts token = true → post token) :
    Told post cursor (cursor.takeIf (cursor.peek?.any accepts) expected) := by
  rw [Cursor.takeIf]
  split
  · next tested =>
    obtain ⟨token, rest, next, accepted⟩ := Cursor.next_of_peek tested
    rw [Cursor.advance_eq next]
    exact result (.of_take next (within token accepted)) (holds token (by simp [next]) accepted) rfl
  · exact record expected

end Told

namespace Parse

/-- A parse that tells a failure once in front of any well formed tokens. -/
def TellsOnce {α : Type} (post : α → Prop) (parse : Parse α) : Prop :=
  ∀ cursor : Cursor, (∀ token ∈ cursor.upcoming, token.WellFormed) →
    Told post cursor (parse cursor)

variable {α β : Type}

namespace TellsOnce

theorem pure (value : α) : TellsOnce (fun _ => True) (pure value : Parse α) :=
  fun _ _ => .result .refl trivial rfl

theorem text (token : Token) : TellsOnce (fun _ => True) (Parse.text token) :=
  fun _ _ => .result .refl trivial rfl

theorem spanFrom (start : Position) : TellsOnce (fun _ => True) (Parse.spanFrom start) :=
  fun _ _ => .result .refl trivial rfl

theorem token {kind : Kind} (other : kind ≠ .newline) :
    TellsOnce (fun _ => True) (Parse.token kind) :=
  fun _ _ => .takeIf (fun _ has => Token.withinLine_of_hasKind other has) fun _ _ _ => trivial

theorem anyToken {kinds : List Kind} (plain : ∀ kind ∈ kinds, kind.IsPlain) :
    TellsOnce (·.kind ∈ kinds) (Parse.anyToken kinds) := by
  intro cursor proper
  rw [Parse.anyToken, Cursor.requireAny, any_test]
  refine .takeIf (fun token accepted => ?_) fun token member accepted => ?_
  · obtain ⟨kind, among, has⟩ := List.any_eq_true.1 accepted
    exact Token.withinLine_of_hasKind (plain kind among).newline has
  · obtain ⟨kind, among, has⟩ := List.any_eq_true.1 accepted
    have := plain kind among
    exact (proper token member).hasKind_plain.1 has ▸ among

/-- The next parse is not reached where the first one fails, and starts without an error where it
does not. -/
theorem bind {first : Parse α} {next : α → Parse β} {middle : α → Prop} {post : β → Prop}
    (start : TellsOnce middle first) (behind : ∀ value, middle value → TellsOnce post (next value)) :
    TellsOnce post (first >>= next) := by
  intro cursor proper
  have started := start cursor proper
  cases found : (first cursor).1 with
  | none =>
      rw [bind_none found]
      exact ⟨started.trace, by simp, fun _ => started.failed found⟩
  | some value =>
      obtain ⟨holds, clean⟩ := started.found value found
      have later := behind value holds (first cursor).2
        fun token member => proper token (started.trace.suffix.subset member)
      rw [bind_some found]
      refine ⟨started.trace.trans later.trace, fun last ended => ?_, fun failed => ?_⟩
      · exact (later.found last ended).imp_right (·.trans clean)
      · exact clean ▸ later.failed failed

theorem andThen {first : Parse α} {next : α → Parse β} {middle : α → Prop} {post : β → Prop}
    (start : TellsOnce middle first) (behind : ∀ value, TellsOnce post (next value)) :
    TellsOnce post (first >>= next) :=
  start.bind fun value _ => behind value

end TellsOnce

end Parse

/-! ## Rules that tell once -/

namespace Rule

variable {α : Type}

/-- A rule that tells a failure once wherever it could start. -/
def TellsOnce (rule : Rule α) : Prop :=
  ∀ cursor : Cursor, (∀ token ∈ cursor.upcoming, token.WellFormed) → rule.starts cursor = true →
    Told (fun _ => True) cursor (rule.parse cursor)

namespace TellsOnce

theorem of_parse {rule : Rule α} (tells : Parse.TellsOnce (fun _ => True) rule.parse) :
    rule.TellsOnce :=
  fun cursor proper _ => tells cursor proper

theorem require {rule : Rule α} (tells : rule.TellsOnce) :
    Parse.TellsOnce (fun _ => True) rule.require := by
  intro cursor proper
  rw [Rule.require]
  split
  · next starts => exact tells cursor proper starts
  · exact .record []

theorem choice {rules : List (Rule α)} (tell : ∀ rule ∈ rules, rule.TellsOnce) :
    Parse.TellsOnce (fun _ => True) (Rule.choice rules).parse := by
  intro cursor proper
  cases found : rules.find? (·.starts cursor) with
  | none =>
      rw [choice_none found]
      exact .record []
  | some rule =>
      rw [choice_some found]
      exact tell rule (List.mem_of_find?_eq_some found) cursor proper
        (by simpa using List.find?_some found)

end TellsOnce

end Rule

namespace Grammar

open Parse Cursor

/-! ## Expressions -/

private theorem literal_tells : literal.TellsOnce := by
  intro cursor proper starts
  have fits : cursor.Fits cursor.levels := ⟨rfl, proper⟩
  have accepts : literal.require.Accepts cursor.levels Words.literal (fun _ => True) :=
    literal_accepts.require
  obtain ⟨token, first, isLiteral⟩ := (literal_accepts.starts cursor fits).1 starts
  obtain ⟨rest, next⟩ := List.head?_eq_some_iff.1 first
  obtain ⟨clean, -⟩ := accepts.complete cursor fits [token] ⟨token, rfl, isLiteral⟩ rest next trivial
  obtain ⟨⟨value, found⟩, -⟩ := accepts.sound cursor fits clean
  rw [Rule.require, if_pos starts] at clean found
  exact ⟨literal_lineBound.parse.trace cursor, fun _ _ => ⟨trivial, clean⟩, by simp [found]⟩

private theorem attributes_told (path : String) (cursor : Cursor) (tokens : List Token) :
    (∀ value, (attributes path cursor tokens).1 = some value →
      (attributes path cursor tokens).2.errors = cursor.errors) ∧
    ((attributes path cursor tokens).1 = none → ∃ error : ParseError,
      error.problem = .unexpectedToken ∧
        (attributes path cursor tokens).2.errors = cursor.errors ++ [error]) := by
  fun_induction attributes path cursor tokens with
  | case1 => simp
  | case2 path cursor dot isDot behind => exact ⟨by simp, fun _ => ⟨_, rfl, rfl⟩⟩
  | case3 path cursor dot isDot name rest isName behind ih => exact ih
  | case4 path cursor dot isDot name rest notName behind => exact ⟨by simp, fun _ => ⟨_, rfl, rfl⟩⟩
  | case5 => simp

private theorem reference_tells : TellsOnce (fun _ => True) reference.parse := by
  refine (TellsOnce.token (by simp)).andThen fun first => (TellsOnce.text first).andThen fun path => ?_
  have name : TellsOnce (fun _ => True)
      (fun cursor => attributes path cursor cursor.upcoming : Parse String) := by
    intro cursor _
    obtain ⟨found, failed⟩ := attributes_told path cursor cursor.upcoming
    exact ⟨attributes_trace path cursor _ rfl, fun value read => ⟨trivial, found value read⟩, failed⟩
  exact name.andThen fun name => (TellsOnce.spanFrom _).andThen fun _ => .pure _

private theorem expressionOf_tells {parenthesized : Rule Expression}
    (tells : TellsOnce (fun _ => True) parenthesized.parse) :
    TellsOnce (fun _ => True) (expressionOf parenthesized).parse := by
  apply Rule.TellsOnce.choice
  intro rule member
  simp only [expressionForms, List.mem_cons, List.not_mem_nil, or_false] at member
  rcases member with rfl | rfl | rfl
  · exact literal_tells
  · exact .of_parse tells
  · exact .of_parse reference_tells

private theorem parenthesizedBody_tells {inner : Rule Expression}
    (tells : TellsOnce (fun _ => True) inner.parse) :
    TellsOnce (fun _ => True) (parenthesizedBody inner) := by
  refine (TellsOnce.token (by simp)).andThen fun opening => ?_
  refine (Rule.TellsOnce.of_parse tells).require.andThen fun inner => ?_
  refine (TellsOnce.token (by simp)).andThen fun closing => ?_
  exact (TellsOnce.spanFrom _).andThen fun _ => .pure _

theorem skipRestFrom_errors (cursor : Cursor) (tokens : List Token) :
    (cursor.skipRestFrom tokens).errors = cursor.errors := by
  induction tokens generalizing cursor with
  | nil => rfl
  | cons token rest ih =>
      unfold skipRestFrom
      split
      · rfl
      · exact ih (cursor.shift token rest)

/-- Parentheses that nest too deep are one error, however many of them are left unread behind it. -/
private theorem parenthesizedWithin_tells (levels : Nat) :
    TellsOnce (fun _ => True) (parenthesizedWithin levels).parse := by
  have stuck (cursor : Cursor) : Told (fun _ => True) cursor
      ((none : Option Expression), cursor.recordUnexpected.skipRestOfLine) :=
    ⟨.record cursor.recordUnexpected.skipRestOfLine_trace, by simp,
      fun _ => ⟨_, rfl, skipRestFrom_errors cursor.recordUnexpected _⟩⟩
  induction levels with
  | zero => exact fun cursor _ => stuck cursor
  | succ levels ih =>
      intro cursor proper
      have moved := (parenthesizedWithin_lineBound (levels + 1)).parse.trace cursor
      by_cases full : cursor.depth ≥ maxNesting
      · simp only [parenthesizedWithin, Rule.startingAt, Cursor.enterNested, if_pos full]
        exact stuck cursor
      · have inside := parenthesizedBody_tells (expressionOf_tells ih)
          { cursor with depth := cursor.depth + 1 } proper
        simp only [parenthesizedWithin, Rule.startingAt, Cursor.enterNested, if_neg full] at moved ⊢
        exact ⟨moved, inside.found, inside.failed⟩

private theorem expression_tells : TellsOnce (fun _ => True) expression.parse :=
  expressionOf_tells fun cursor => parenthesizedWithin_tells cursor.levels cursor

/-! ## Assignments -/

private theorem python_tells : TellsOnce (fun _ => True) Grammar.python.parse := by
  have code : TellsOnce (fun _ => True) pythonCode :=
    (TellsOnce.token (by simp)).andThen fun token =>
      (TellsOnce.text token).andThen fun _ => .pure _
  exact code.andThen fun _ => .pure _

private theorem assignment_tells (operators : List Operator) :
    TellsOnce (fun _ => True) (assignment reference operators Grammar.python).parse := by
  refine (Rule.TellsOnce.of_parse reference_tells).require.andThen fun left => ?_
  refine (TellsOnce.anyToken (isPlain_of_operators operators)).bind fun token member => ?_
  obtain ⟨operator, -, equal⟩ := List.mem_map.1 member
  -- Only an operator is taken, and so the branch that fails in silence is never reached.
  rw [← equal]
  exact (Rule.TellsOnce.of_parse python_tells).require.andThen fun _ => .pure _

/-! ## What is required -/

/-- What a required form costs.  It is a word of its language, every token of which is taken without
an error, or one unexpected token.  Either way it stays within its line, and no word that could be
taken is refused. -/
structure CostsOnce {α : Type} (words : Language Token) (follow : List Token → Prop)
    (cursor : Cursor) (outcome : Option α × Cursor) : Prop where
  found : ∀ value, outcome.1 = some value → outcome.2.errors = cursor.errors ∧
    ∃ word ∈ words, word ≠ [] ∧ cursor.upcoming = word ++ outcome.2.upcoming ∧
      outcome.2.consumed = cursor.consumed + word.length
  failed : outcome.1 = none → ∃ error : ParseError,
    error.problem = .unexpectedToken ∧ outcome.2.errors = cursor.errors ++ [error]
  inLine : ∃ taken, cursor.upcoming = taken ++ outcome.2.upcoming ∧
    outcome.2.consumed = cursor.consumed + taken.length ∧ ∀ token ∈ taken, token.kind ≠ .newline
  complete : ∀ word ∈ words, ∀ rest, cursor.upcoming = word ++ rest → follow rest →
    (∃ value, outcome.1 = some value) ∧ outcome.2.upcoming = rest

/-- What is taken within a line holds no newline. -/
theorem trace_inLine {cursor last : Cursor} (trace : Trace cursor last)
    (proper : ∀ token ∈ cursor.upcoming, token.WellFormed) :
    ∃ taken, cursor.upcoming = taken ++ last.upcoming ∧
      last.consumed = cursor.consumed + taken.length ∧ ∀ token ∈ taken, token.kind ≠ .newline := by
  obtain ⟨taken, split, count⟩ := (Journey.of_trace trace).takes
  obtain ⟨same, splitSame, inside⟩ := trace.taken
  obtain rfl := List.append_cancel_right (splitSame.symm.trans split)
  refine ⟨same, split, count, fun token member newline => ?_⟩
  obtain ⟨kind, other, has⟩ := inside token member
  have wellFormed := proper token (split ▸ List.mem_append_left _ member)
  exact other ((wellFormed.hasKind_of_newline newline kind).1 has)

private theorem costsOnce {α : Type} {words : Language Token} {follow : List Token → Prop}
    {parse : Parse α} {cursor : Cursor} (proper : ∀ token ∈ cursor.upcoming, token.WellFormed)
    (tells : TellsOnce (fun _ => True) parse) (nonempty : [] ∉ words)
    (accepts : parse.Accepts cursor.levels words follow) :
    CostsOnce words follow cursor (parse cursor) := by
  have fits : cursor.Fits cursor.levels := ⟨rfl, proper⟩
  have told := tells cursor proper
  obtain ⟨taken, split, count, inside⟩ := trace_inLine told.trace proper
  refine ⟨fun value read => ?_, told.failed, ⟨taken, split, count, inside⟩, ?_⟩
  · have clean := (told.found value read).2
    obtain ⟨-, word, member, splitWord⟩ := accepts.sound cursor fits clean
    obtain rfl := List.append_cancel_right (splitWord.symm.trans split)
    exact ⟨clean, word, member, fun empty => nonempty (empty ▸ member), split, count⟩
  · intro word member rest next follows
    obtain ⟨clean, lands⟩ := accepts.complete cursor fits word member rest next follows
    exact ⟨(accepts.sound cursor fits clean).1, lands⟩

/-- At any place of a script and at any depth, a required expression is read as a whole or costs one
error, also where it fails deep inside of parentheses or nests too deep itself.  So does a required
assignment of python to a name, whatever operators it may have. -/
theorem required_costsOnce {source : List Char} {cursor : Cursor}
    (ahead : cursor.upcoming <:+ Token.visible source) :
    CostsOnce (Words.expression cursor.levels) (Avoids [.punctuation .dot]) cursor
      (expression.require cursor) ∧
    ∀ operators, CostsOnce (Words.reference * assigned operators) (fun _ => True) cursor
      ((assignment reference operators Grammar.python).require cursor) := by
  have proper : ∀ token ∈ cursor.upcoming, token.WellFormed :=
    fun token member => Token.visible_wellFormed token (ahead.subset member)
  constructor
  · have accepts := expression_accepts cursor.levels
    exact costsOnce proper (Rule.TellsOnce.of_parse expression_tells).require
      accepts.begins.nil_notMem accepts.require
  · intro operators
    have accepts : (assignment reference operators Grammar.python).Accepts cursor.levels _ _
        (fun _ => True) := assignment_accepts operators
    exact costsOnce proper (Rule.TellsOnce.of_parse (assignment_tells operators)).require
      accepts.begins.nil_notMem accepts.require

private def deepOpening : Cursor :=
  { Cursor.ofTokens "((x.)".toList (Token.ofText "((x.)".toList) with depth := 99 }

/-- One level below the cap, the second of two parentheses is the only error. -/
theorem required_costsOnce_deepOpening :
    deepOpening.upcoming <:+ Token.visible "((x.)".toList ∧
      (expression.require deepOpening).1 = none ∧ ∃ error : ParseError,
        error.problem = .unexpectedToken ∧ (expression.require deepOpening).2.errors = [error] := by
  have failed : (expression.require deepOpening).1 = none := by decide +kernel
  have ahead : deepOpening.upcoming <:+ Token.visible "((x.)".toList := List.suffix_refl _
  exact ⟨ahead, failed, (required_costsOnce ahead).1.failed failed⟩

end Grammar

end NovelScript
