import NovelScript.Proofs.Nesting

/-!
# Failures

A rule that fails has recorded an error, and a rule that does not has taken a token.  Only a
literal fails in silence, and only where none could start; every other rule asks before it reads
one, so that none of them passes that silence on.
-/

namespace NovelScript

open Grammar

namespace Cursor.Journey

variable {first second : Cursor}

theorem suffix (journey : Journey first second) : second.upcoming <:+ first.upcoming := by
  obtain ⟨taken, split, -⟩ := journey.takes
  exact ⟨taken, split.symm⟩

theorem consumed_le (journey : Journey first second) : first.consumed ≤ second.consumed := by
  obtain ⟨taken, -, count⟩ := journey.takes
  exact count ▸ Nat.le_add_right _ _

theorem errors_prefix (journey : Journey first second) : first.errors <+: second.errors := by
  induction journey with
  | stay => exact List.prefix_refl _
  | take next later ih => exact ih
  | record inside later ih => exact (List.prefix_append _ _).trans ih

end Cursor.Journey

/-! ## Outcomes -/

/-- What a parse may come back with: a result that has a property, behind so many tokens at least,
or an error. -/
structure Settled {α : Type} (least : Nat) (post : α → Prop) (cursor : Cursor)
    (outcome : Option α × Cursor) : Prop where
  journey : Cursor.Journey cursor outcome.2
  found : ∀ value, outcome.1 = some value →
    post value ∧ cursor.consumed + least ≤ outcome.2.consumed
  failed : outcome.1 = none →
    ∃ recorded, recorded ≠ [] ∧ outcome.2.errors = cursor.errors ++ recorded

namespace Settled

variable {α : Type} {least : Nat} {post : α → Prop} {cursor last : Cursor}

theorem result {value : α} (journey : Cursor.Journey cursor last) (holds : post value)
    (count : cursor.consumed + least ≤ last.consumed) :
    Settled least post cursor (some value, last) := by
  refine ⟨journey, ?_, by simp⟩
  rintro _ ⟨⟩
  exact ⟨holds, count⟩

/-- Where no token has to be taken, a result that was reached is enough. -/
theorem reached {value : α} (journey : Cursor.Journey cursor last) :
    Settled 0 (fun _ => True) cursor (some value, last) :=
  result journey trivial journey.consumed_le

theorem recorded (journey : Cursor.Journey cursor last)
    (told : ∃ recorded, recorded ≠ [] ∧ last.errors = cursor.errors ++ recorded) :
    Settled least post cursor (none, last) :=
  ⟨journey, by simp, fun _ => told⟩

theorem record (expected : List Kind) :
    Settled least post cursor (none, cursor.record .unexpectedToken expected) :=
  recorded (.of_trace (.of_record expected)) ⟨_, List.cons_ne_nil _ [], rfl⟩

theorem takeIf {post : Token → Prop} {accepts : Token → Bool} {expected : List Kind}
    (holds : ∀ token ∈ cursor.upcoming, accepts token = true → post token) :
    Settled 1 post cursor (cursor.takeIf (cursor.peek?.any accepts) expected) := by
  rw [Cursor.takeIf]
  split
  · next tested =>
    obtain ⟨token, rest, next, accepted⟩ := Cursor.next_of_peek tested
    rw [Cursor.advance_eq next]
    exact result (.of_take next) (holds token (by simp [next]) accepted) (Nat.le_refl _)
  · exact record expected

end Settled

namespace Parse

/-- A parse that settles in front of any well formed tokens. -/
def Settles {α : Type} (least : Nat) (post : α → Prop) (parse : Parse α) : Prop :=
  ∀ cursor : Cursor, (∀ token ∈ cursor.upcoming, token.WellFormed) →
    Settled least post cursor (parse cursor)

variable {α β : Type} {least : Nat}

theorem Reads.settles {post : α → Prop} {parse : Parse α} (reads : Reads post parse) :
    Settles 0 (fun _ => True) parse := by
  intro cursor proper
  obtain ⟨value, found, -⟩ := reads.result cursor
  rw [← Prod.eta (parse cursor), found]
  exact .reached (.of_trace (reads.bound.trace cursor))

namespace Settles

theorem pure (value : α) : Settles 0 (fun _ => True) (pure value : Parse α) :=
  fun _ _ => .reached .stay

theorem token (kind : Kind) : Settles 1 (fun _ => True) (Parse.token kind) :=
  fun _ _ => .takeIf fun _ _ _ => trivial

theorem anyToken {kinds : List Kind} (plain : ∀ kind ∈ kinds, kind.IsPlain) :
    Settles 1 (·.kind ∈ kinds) (Parse.anyToken kinds) := by
  intro cursor proper
  rw [Parse.anyToken, Cursor.requireAny, any_test]
  refine .takeIf fun token member accepted => ?_
  obtain ⟨kind, among, has⟩ := List.any_eq_true.1 accepted
  have := plain kind among
  exact (proper token member).hasKind_plain.1 has ▸ among

/-- The next parse may rely on what the first one yields. -/
theorem bind {first : Parse α} {next : α → Parse β} {middle : α → Prop} {post : β → Prop}
    (start : Settles least middle first)
    (behind : ∀ value, middle value → Settles 0 post (next value)) :
    Settles least post (first >>= next) := by
  intro cursor proper
  have started := start cursor proper
  cases found : (first cursor).1 with
  | none =>
      rw [bind_none found]
      exact .recorded started.journey (started.failed found)
  | some value =>
      obtain ⟨holds, count⟩ := started.found value found
      have later := behind value holds (first cursor).2
        fun token member => proper token (started.journey.suffix.subset member)
      rw [bind_some found]
      refine ⟨started.journey.trans later.journey, fun last ended => ?_, fun failed => ?_⟩
      · obtain ⟨ends, more⟩ := later.found last ended
        exact ⟨ends, Nat.le_trans count more⟩
      · obtain ⟨recorded, some_, equal⟩ := later.failed failed
        obtain ⟨before, grown⟩ := started.journey.errors_prefix
        refine ⟨before ++ recorded, by simp [some_], ?_⟩
        rw [equal, ← grown, List.append_assoc]

theorem andThen {first : Parse α} {next : α → Parse β} {middle : α → Prop} {post : β → Prop}
    (start : Settles least middle first) (behind : ∀ value, Settles 0 post (next value)) :
    Settles least post (first >>= next) :=
  start.bind fun value _ => behind value

theorem fewer {post : α → Prop} {parse : Parse α} (settles : Settles least post parse) :
    Settles 0 post parse := by
  intro cursor proper
  obtain ⟨journey, found, failed⟩ := settles cursor proper
  exact ⟨journey, fun value equal => (found value equal).imp_right
    (Nat.le_trans (Nat.add_le_add_left (Nat.zero_le least) _)), failed⟩

end Settles

end Parse

/-! ## Rules that settle -/

namespace Rule

variable {α : Type}

/-- A rule that settles wherever it could start. -/
def Settles (rule : Rule α) : Prop :=
  ∀ cursor : Cursor, (∀ token ∈ cursor.upcoming, token.WellFormed) → rule.starts cursor = true →
    Settled 1 (fun _ => True) cursor (rule.parse cursor)

namespace Settles

theorem of_parse {rule : Rule α} (settles : Parse.Settles 1 (fun _ => True) rule.parse) :
    rule.Settles :=
  fun cursor proper _ => settles cursor proper

theorem require {rule : Rule α} (settles : rule.Settles) :
    Parse.Settles 1 (fun _ => True) rule.require := by
  intro cursor proper
  rw [Rule.require]
  split
  · next starts => exact settles cursor proper starts
  · exact .record []

theorem choice {rules : List (Rule α)} (settle : ∀ rule ∈ rules, rule.Settles) :
    Parse.Settles 1 (fun _ => True) (Rule.choice rules).parse := by
  intro cursor proper
  cases found : rules.find? (·.starts cursor) with
  | none =>
      rw [choice_none found]
      exact .record []
  | some rule =>
      rw [choice_some found]
      exact settle rule (List.mem_of_find?_eq_some found) cursor proper
        (by simpa using List.find?_some found)

end Settles

end Rule

namespace Grammar

open Parse Cursor

/-! ## Expressions -/

theorem literal_settles : literal.Settles := by
  intro cursor proper starts
  have first : ∃ kind, LiteralKind.all.find? (fun kind => cursor.test (.literal kind)) =
      some kind := by
    rw [← Option.isSome_iff_exists, List.find?_isSome]
    exact List.any_eq_true.1 starts
  obtain ⟨kind, found⟩ := first
  have reading : Settles 1 (fun _ => True)
      (token (.literal kind) >>= fun token => do
        pure (.literal ⟨kind, ← text token, token.span⟩) : Parse Expression) :=
    (Settles.token _).andThen fun token =>
      (Reads.text token).settles.andThen fun _ => .pure _
  simp only [literal]
  rw [bind_some (show (look cursor).1 = some cursor from rfl), found]
  exact reading cursor proper

/-- Where no literal is next, the rule does nothing at all. -/
theorem literal_silent {cursor : Cursor} (starts : literal.starts cursor = false) :
    literal.parse cursor = (none, cursor) := by
  have none_ : LiteralKind.all.find? (fun kind => cursor.test (.literal kind)) = none := by
    rw [List.find?_eq_none]
    exact fun kind member => by simpa using List.any_eq_false.1 starts kind member
  simp only [literal]
  rw [bind_some (show (look cursor).1 = some cursor from rfl), none_]
  rfl

private theorem attributes_failed (path : String) (cursor : Cursor) (tokens : List Token)
    (failed : (attributes path cursor tokens).1 = none) :
    ∃ recorded, recorded ≠ [] ∧
      (attributes path cursor tokens).2.errors = cursor.errors ++ recorded := by
  fun_induction attributes path cursor tokens with
  | case1 path cursor => cases failed
  | case2 path cursor dot isDot behind => exact ⟨_, List.cons_ne_nil _ [], rfl⟩
  | case3 path cursor dot isDot name rest isName behind ih => exact ih failed
  | case4 path cursor dot isDot name rest notName behind => exact ⟨_, List.cons_ne_nil _ [], rfl⟩
  | case5 path cursor dot rest notDot => cases failed

theorem reference_settles : Settles 1 (fun _ => True) reference.parse := by
  refine (Settles.token _).andThen fun first => (Reads.text first).settles.andThen fun path => ?_
  have name : Settles 0 (fun _ => True)
      (fun cursor => attributes path cursor cursor.upcoming : Parse String) := by
    intro cursor _
    have journey := Journey.of_trace (attributes_trace path cursor cursor.upcoming rfl)
    exact ⟨journey, fun _ _ => ⟨trivial, journey.consumed_le⟩,
      attributes_failed path cursor cursor.upcoming⟩
  exact name.andThen fun name => (Reads.spanFrom _).settles.andThen fun _ => .pure _

theorem pythonCode_settles : Settles 1 (fun _ => True) pythonCode :=
  (Settles.token _).andThen fun token => (Reads.text token).settles.andThen fun _ => .pure _

theorem python_settles : Settles 1 (fun _ => True) Grammar.python.parse :=
  pythonCode_settles.andThen fun _ => .pure _

private theorem expressionOf_settles {parenthesized : Rule Expression}
    (settles : Settles 1 (fun _ => True) parenthesized.parse) :
    Settles 1 (fun _ => True) (expressionOf parenthesized).parse := by
  apply Rule.Settles.choice
  intro rule member
  simp only [expressionForms, List.mem_cons, List.not_mem_nil, or_false] at member
  rcases member with rfl | rfl | rfl
  · exact literal_settles
  · exact .of_parse settles
  · exact .of_parse reference_settles

private theorem parenthesizedBody_settles {inner : Rule Expression}
    (settles : Settles 1 (fun _ => True) inner.parse) :
    Settles 1 (fun _ => True) (parenthesizedBody inner) := by
  refine (Settles.token _).andThen fun opening => ?_
  refine (Rule.Settles.of_parse settles).require.fewer.andThen fun inner => ?_
  refine (Settles.token _).fewer.andThen fun closing => ?_
  exact (Reads.spanFrom _).settles.andThen fun _ => .pure _

/-- Parentheses that nest too deep are a failure with an error, as those are in which they stand. -/
theorem parenthesizedWithin_settles (levels : Nat) :
    Settles 1 (fun _ => True) (parenthesizedWithin levels).parse := by
  have skipped (cursor : Cursor) : Settled 1 (fun _ => True) cursor
      ((none : Option Expression), cursor.recordUnexpected.skipRestOfLine) := by
    have skips := cursor.recordUnexpected.skipRestOfLine_trace
    obtain ⟨more, grown⟩ := skips.errors_prefix
    have told : cursor.recordUnexpected.skipRestOfLine.errors =
        cursor.errors ++ ⟨.unexpectedToken, cursor.current, cursor.peek?, []⟩ :: more :=
      grown.symm.trans (List.append_assoc ..)
    exact .recorded (.of_trace (.record skips)) ⟨_, List.cons_ne_nil _ more, told⟩
  induction levels with
  | zero => exact fun cursor _ => skipped cursor
  | succ levels ih =>
      intro cursor proper
      by_cases full : cursor.depth ≥ maxNesting
      · simp only [parenthesizedWithin, Rule.startingAt, Cursor.enterNested, if_pos full]
        exact skipped cursor
      · have inside := parenthesizedBody_settles (expressionOf_settles ih)
          { cursor with depth := cursor.depth + 1 } proper
        simp only [parenthesizedWithin, Rule.startingAt, Cursor.enterNested, if_neg full]
        exact ⟨inside.journey.leaveNested, inside.found, inside.failed⟩

theorem parenthesized_settles : Settles 1 (fun _ => True) parenthesized.parse :=
  fun cursor => parenthesizedWithin_settles cursor.levels cursor

private theorem assignment_settles {left right : Rule Expression} (operators : List Operator)
    (before : left.Settles) (behind : right.Settles) :
    Settles 1 (fun _ => True) (assignment left operators right).parse := by
  refine before.require.andThen fun left => ?_
  have plain : ∀ kind ∈ operators.map Kind.operator, kind.IsPlain := by
    intro kind member
    obtain ⟨operator, -, rfl⟩ := List.mem_map.1 member
    infer_instance
  refine (Settles.anyToken plain).fewer.bind fun token member => ?_
  obtain ⟨operator, -, equal⟩ := List.mem_map.1 member
  -- Only an operator is taken, and so the silent branch behind it is never reached.
  rw [← equal]
  exact behind.require.fewer.andThen fun _ => .pure _

/-! ## Statements -/

theorem Opens.settles {kind : Kind} {rule : Rule Statement} (opens : Opens kind rule) :
    Settles 1 (fun _ => True) rule.parse := by
  obtain ⟨next, rfl, reads⟩ := opens.reads
  exact (Settles.token kind).andThen fun head => (reads head).settles

private theorem labelWith_settles (levels : Nat) :
    Settles 1 (fun _ => True) (labelWith (bodiesWithin levels)).parse := by
  refine (Settles.token _).andThen fun start => labelHead_reads.settles.andThen fun head => ?_
  refine (Reads.spanFrom _).settles.andThen fun span => ?_
  have moved : Settles 0 (fun _ => True) (move fun cursor => cursor.expectEndOfLine.2) :=
    fun cursor _ => .reached cursor.expectEndOfLine_journey
  refine moved.andThen fun _ => ?_
  refine (show Settles 0 (fun _ => True) _ from fun cursor _ => ?_).andThen fun _ => .pure _
  exact .reached (bodiesWithin_journey levels start.start.column cursor)

private theorem statementWith_settles (levels : Nat) :
    Settles 1 (fun _ => True) (statementWith (bodiesWithin levels)).parse := by
  apply Rule.Settles.choice
  intro rule member
  simp only [statementForms, List.mem_cons, List.not_mem_nil, or_false] at member
  rcases member with rfl | rfl | rfl | rfl | rfl | rfl | rfl | rfl | rfl
  · exact .of_parse define_opens.settles
  · exact .of_parse defaultValue_opens.settles
  · exact .of_parse (labelWith_settles levels)
  · exact .of_parse jump_opens.settles
  · exact .of_parse call_opens.settles
  · exact .of_parse return_opens.settles
  · exact .of_parse pass_opens.settles
  · exact .of_parse pause_opens.settles
  · exact .of_parse pythonLine_opens.settles

/-! ## All rules -/

/-- The rule for literals, among the rules of all results. -/
def IsLiteral {α : Type} (rule : Rule α) : Prop :=
  (⟨α, rule⟩ : (result : Type) × Rule result) = ⟨Expression, literal⟩

/-- Every rule settles wherever it could start, and every rule but the one for literals settles
wherever it is called. -/
theorem IsRule.settles {α : Type} {rule : Rule α} (is : IsRule rule) :
    rule.Settles ∧ (¬IsLiteral rule → Settles 1 (fun _ => True) rule.parse) := by
  have anywhere {β : Type} {other : Rule β} (settles : Settles 1 (fun _ => True) other.parse) :
      other.Settles ∧ (¬IsLiteral other → Settles 1 (fun _ => True) other.parse) :=
    ⟨.of_parse settles, fun _ => settles⟩
  induction is with
  | literal => exact ⟨literal_settles, fun other => absurd rfl other⟩
  | parenthesized => exact anywhere parenthesized_settles
  | reference => exact anywhere reference_settles
  | python => exact anywhere python_settles
  | assignment operators _ _ before behind =>
      exact anywhere (assignment_settles operators before.1 behind.1)
  | define => exact anywhere define_opens.settles
  | defaultValue => exact anywhere defaultValue_opens.settles
  | label => exact anywhere fun cursor => labelWith_settles cursor.levels cursor
  | jump => exact anywhere jump_opens.settles
  | call => exact anywhere call_opens.settles
  | «return» => exact anywhere return_opens.settles
  | pass => exact anywhere pass_opens.settles
  | pause => exact anywhere pause_opens.settles
  | pythonLine => exact anywhere pythonLine_opens.settles
  | statement => exact anywhere fun cursor => statementWith_settles cursor.levels cursor
  | choice _ ih => exact anywhere (Rule.Settles.choice fun rule member => (ih rule member).1)

/-- Over the tokens of a script, a rule with a result has taken a token at least, and a rule without
one has recorded an error at least, unless it is the rule for literals and none is next. -/
theorem IsRule.outcome {source : List Char} {cursor : Cursor}
    (ahead : cursor.upcoming <:+ Token.visible source) {α : Type} {rule : Rule α}
    (is : IsRule rule) :
    (∀ value, (rule.parse cursor).1 = some value → ∃ taken, taken ≠ [] ∧
      cursor.upcoming = taken ++ (rule.parse cursor).2.upcoming ∧
      (rule.parse cursor).2.consumed = cursor.consumed + taken.length) ∧
    ((rule.parse cursor).1 = none → ∃ recorded,
      (rule.parse cursor).2.errors = cursor.errors ++ recorded ∧
      (recorded = [] ↔ IsLiteral rule ∧ rule.starts cursor = false)) := by
  have proper : ∀ token ∈ cursor.upcoming, token.WellFormed :=
    fun token member => Token.visible_wellFormed token (ahead.subset member)
  obtain ⟨started, anywhere⟩ := is.settles
  by_cases silent : IsLiteral rule ∧ rule.starts cursor = false
  · obtain ⟨same, starts⟩ := silent
    refine ⟨?_, fun _ => ⟨[], ?_, iff_of_true rfl ⟨same, starts⟩⟩⟩ <;>
      · cases same
        rw [literal_silent starts]
        simp
  · have settled : Settled 1 (fun _ => True) cursor (rule.parse cursor) := by
      by_cases same : IsLiteral rule
      · exact started cursor proper (by simpa [same] using silent)
      · exact anywhere same cursor proper
    constructor
    · intro value found
      obtain ⟨taken, split, count⟩ := settled.journey.takes
      have more := (settled.found value found).2
      refine ⟨taken, ?_, split, count⟩
      rintro rfl
      simp only [List.length_nil] at count
      omega
    · intro failed
      obtain ⟨recorded, some_, equal⟩ := settled.failed failed
      exact ⟨recorded, equal, iff_of_false some_ silent⟩

private def nameAlone : Cursor :=
  Cursor.ofTokens "x".toList (Token.ofText "x".toList)

/-- No jump can be read at a name, which is an error. -/
theorem jump_nameAlone_outcome :
    (jump.parse nameAlone).1 = none ∧ ∃ recorded,
      (jump.parse nameAlone).2.errors = nameAlone.errors ++ recorded ∧
      (recorded = [] ↔ IsLiteral jump ∧ jump.starts nameAlone = false) := by
  have failed : (jump.parse nameAlone).1 = none := by decide +kernel
  exact ⟨failed, (IsRule.outcome (List.suffix_refl nameAlone.upcoming) IsRule.jump).2 failed⟩

/-- No literal can be read at a name either, but no error says so. -/
theorem literal_nameAlone_silent :
    IsRule literal ∧ nameAlone.upcoming <:+ Token.visible "x".toList ∧
      (literal.parse nameAlone).1 = none ∧
      (literal.parse nameAlone).2.errors = nameAlone.errors :=
  ⟨.literal, List.suffix_refl _, by decide +kernel⟩

end Grammar

end NovelScript
