import NovelScript.Proofs.Progress
import NovelScript.Proofs.PythonInventory

/-!
# Nesting

Labels and parentheses share one count of levels.  Every rule comes back at the depth that it was
called at, however it ends, so that each line of a block has as many levels left as the first one;
and no statement or expression stands inside more labels and parentheses than there are levels.
-/

namespace NovelScript

/-! ## Levels of syntax trees -/

namespace Expression

/-- The expression and all inside it, with the number of parentheses around each, its own and those
`around` the whole included. -/
def nested (around : Nat) : Expression → List (Nat × Expression)
  | .literal value => [(around, .literal value)]
  | .reference name => [(around, .reference name)]
  | .parenthesized inner span =>
      (around + 1, .parenthesized inner span) :: inner.nested (around + 1)
  | .assignment left operator right span =>
      (around, .assignment left operator right span) :: (left.nested around ++ right.nested around)
  | .python code => [(around, .python code)]

/-- An expression with no more parentheses, one inside the other, than these levels. -/
def Within (levels : Nat) (expression : Expression) : Prop :=
  ∀ around, ∀ inner ∈ expression.nested around, inner.1 ≤ around + levels

namespace Within

variable {levels : Nat}

theorem literal (value : Literal) : (literal value).Within levels := by
  simp [Within, nested]

theorem reference (name : Reference) : (reference name).Within levels := by
  simp [Within, nested]

theorem python (code : PythonCode) : (python code).Within levels := by
  simp [Within, nested]

theorem parenthesized {inner : Expression} (within : inner.Within levels) (span : Span) :
    (parenthesized inner span).Within (levels + 1) := by
  intro around deeper member
  rcases List.mem_cons.1 member with rfl | member
  · show around + 1 ≤ around + (levels + 1)
    omega
  · have := within (around + 1) deeper member
    omega

theorem assignment {left right : Expression} (before : left.Within levels)
    (behind : right.Within levels) (operator : Operator) (span : Span) :
    (assignment left operator right span).Within levels := by
  intro around deeper member
  rcases List.mem_cons.1 member with rfl | member
  · exact Nat.le_add_right around levels
  · rcases List.mem_append.1 member with member | member
    · exact before around deeper member
    · exact behind around deeper member

end Within

end Expression

namespace Statement

/-- The expressions that a statement is made of; the body of a label has its own. -/
def parts : Statement → List Expression
  | .define binding =>
      .literal binding.priority ::
        (binding.index.toList.map .python ++ binding.assignment.toList.map Assignment.toExpression)
  | .defaultValue binding =>
      .literal binding.priority :: binding.assignment.toList.map Assignment.toExpression
  | .label head _ _ => head.parameters.filterMap (·.default)
  | .jump transfer => transfer.expression.toList.map .python
  | .call transfer => transfer.expression.toList.map .python ++ transfer.arguments
  | .return value _ => value.toList
  | .pass _ => []
  | .pause duration _ => duration.toList
  | .python code _ => code.toList.map .python

/-- All expressions of a statement, with the number of parentheses around each. -/
def expressions (statement : Statement) : List (Nat × Expression) :=
  statement.parts.flatMap (Expression.nested 0)

/-- A statement whose expressions have no more parentheses than these levels. -/
def Within (levels : Nat) (statement : Statement) : Prop :=
  ∀ part ∈ statement.parts, part.Within levels

end Statement

/-! ## Parses that come back to their depth -/

namespace Parse

variable {α β : Type} {depth : Nat}

/-- From a depth a parse comes back to it, and what comes back from the parse has a property. -/
def Nests (depth : Nat) (post : α → Prop) (parse : Parse α) : Prop :=
  ∀ cursor, cursor.depth = depth →
    (parse cursor).2.depth = depth ∧ ∀ value ∈ (parse cursor).1, post value

theorem LineBound.nests {parse : Parse α} (bound : parse.LineBound) :
    Nests depth (fun _ => True) parse :=
  fun cursor equal => ⟨(bound.trace cursor).depth_eq.trans equal, fun _ _ => trivial⟩

theorem Gives.nests {parse : Parse α} {post : α → Prop} (gives : Gives post parse)
    (bound : parse.LineBound) : Nests depth post parse :=
  fun cursor equal => ⟨(bound.trace cursor).depth_eq.trans equal, gives cursor⟩

namespace Nests

theorem pure {post : α → Prop} {value : α} (holds : post value) :
    Nests depth post (pure value) := by
  intro cursor equal
  refine ⟨equal, ?_⟩
  rintro _ ⟨⟩
  exact holds

theorem bind {first : Parse α} {next : α → Parse β} {middle : α → Prop} {post : β → Prop}
    (start : Nests depth middle first)
    (behind : ∀ value, middle value → Nests depth post (next value)) :
    Nests depth post (first >>= next) := by
  intro cursor equal
  obtain ⟨same, holds⟩ := start cursor equal
  cases found : (first cursor).1 with
  | none =>
      rw [bind_none found]
      exact ⟨same, by simp⟩
  | some value =>
      rw [bind_some found]
      exact behind value (holds value found) _ same

theorem andThen {first : Parse α} {next : α → Parse β} {post : β → Prop} (bound : first.LineBound)
    (behind : ∀ value, Nests depth post (next value)) : Nests depth post (first >>= next) :=
  bind bound.nests fun value _ => behind value

theorem attempt {parse : Parse α} {post : α → Prop} (nests : Nests depth post parse) :
    Nests depth (fun result => ∀ value ∈ result, post value) parse.attempt := by
  intro cursor equal
  obtain ⟨same, holds⟩ := nests cursor equal
  refine ⟨same, ?_⟩
  rintro _ ⟨⟩
  exact holds

theorem require {rule : Rule α} {post : α → Prop} (nests : Nests depth post rule.parse) :
    Nests depth post rule.require := by
  intro cursor equal
  unfold Rule.require
  split
  · exact nests cursor equal
  · exact ⟨equal, by simp⟩

theorem «optional» {rule : Rule α} {post : α → Prop} (nests : Nests depth post rule.parse) :
    Nests depth (fun result => ∀ value ∈ result, post value) rule.optional := by
  intro cursor equal
  unfold Rule.optional
  split
  · exact nests.attempt cursor equal
  · exact ⟨equal, by simp⟩

theorem choice {rules : List (Rule α)} {post : α → Prop}
    (nests : ∀ rule ∈ rules, Nests depth post rule.parse) :
    Nests depth post (Rule.choice rules).parse := by
  intro cursor equal
  cases found : rules.find? (·.starts cursor) with
  | some rule =>
      rw [Rule.choice_some found]
      exact nests rule (List.mem_of_find?_eq_some found) cursor equal
  | none =>
      rw [Rule.choice_none found]
      exact ⟨equal, by simp⟩

theorem separated {item : Parse α} {post : α → Prop} (nests : Nests depth post item)
    (advances : item.Advances) (cursor : Cursor) (equal : cursor.depth = depth) :
    (separated item advances cursor).2.depth = depth ∧
      ∀ value ∈ (separated item advances cursor).1, post value := by
  fun_induction Parse.separated item advances cursor with
  | case1 cursor behind found =>
      obtain ⟨same, -⟩ := nests cursor equal
      rw [found] at same
      exact ⟨same, by simp⟩
  | case2 cursor value behind found tested values last ended ih =>
      obtain ⟨same, holds⟩ := nests cursor equal
      rw [found] at same holds
      obtain ⟨comma, rest, next, -⟩ := Cursor.next_of_peek tested
      rw [ended, Cursor.advance_eq next] at ih
      obtain ⟨back, all⟩ := ih same
      refine ⟨back, fun other member => ?_⟩
      rcases List.mem_cons.1 member with rfl | member
      · exact holds _ rfl
      · exact all other member
  | case3 cursor value behind found tested =>
      obtain ⟨same, holds⟩ := nests cursor equal
      rw [found] at same holds
      have closing : Cursor.Trace behind (behind.requireToken (.punctuation .closeParen)).2 :=
        (token_lineBound (by simp)).trace behind
      refine ⟨closing.depth_eq.trans same, fun other member => ?_⟩
      rw [List.mem_singleton] at member
      exact holds other (by rw [member]; rfl)

theorem parenthesizedList {item : Parse α} {post : α → Prop} (nests : Nests depth post item)
    (advances : item.Advances) :
    Nests depth (fun values => ∀ value ∈ values, post value)
      (Parse.parenthesizedList item advances) := by
  refine .andThen (tokenIf_lineBound (by simp)) fun opening => ?_
  cases opening with
  | none => exact .pure (by simp)
  | some _ =>
      refine .andThen (tokenIf_lineBound (by simp)) fun closing => ?_
      cases closing with
      | some _ => exact .pure (by simp)
      | none =>
          intro cursor equal
          obtain ⟨back, all⟩ := nests.separated advances cursor equal
          refine ⟨back, ?_⟩
          rintro _ ⟨⟩
          exact all

end Nests

end Parse

namespace Grammar

open Parse

/-! ## Expressions within the levels that are left -/

theorem reference_within (levels : Nat) : Gives (·.Within levels) reference.parse :=
  reference_gives .reference

theorem python_within (levels : Nat) : Gives (·.Within levels) Grammar.python.parse :=
  .andThen fun code => .pure (.python code)

theorem parenthesizedWithin_within (levels : Nat) :
    Gives (·.Within levels) (parenthesizedWithin levels).parse :=
  @parenthesizedWithin_gives (fun levels expression => expression.Within levels)
    (fun _ => .literal) (fun _ => .reference) (fun _ _ span within => within.parenthesized span)
    levels

theorem parenthesized_nests (depth : Nat) :
    Nests depth (·.Within (maxNesting - depth)) parenthesized.parse := by
  intro cursor equal
  -- The rule takes its levels from the depth that it is called at.
  subst equal
  exact ⟨(parenthesized_lineBound.parse.trace cursor).depth_eq,
    parenthesizedWithin_within cursor.levels cursor⟩

theorem expression_nests (depth : Nat) :
    Nests depth (·.Within (maxNesting - depth)) expression.parse := by
  apply Nests.choice
  intro rule member
  simp only [expressionForms, List.mem_cons, List.not_mem_nil, or_false] at member
  rcases member with rfl | rfl | rfl
  · exact (literal_gives .literal).nests literal_lineBound.parse
  · exact parenthesized_nests depth
  · exact (reference_within _).nests reference_lineBound.parse

/-! ## Levels of parentheses -/

/-- Parentheses take the levels that are left where they start. -/
theorem expressionOf_require (cursor : Cursor) :
    (expressionOf (parenthesizedWithin cursor.levels)).require cursor =
      expression.require cursor := by
  have starts : (parenthesizedWithin cursor.levels).starts = parenthesized.starts := by
    cases cursor.levels <;> rfl
  have parse : (parenthesizedWithin cursor.levels).parse cursor = parenthesized.parse cursor := rfl
  cases first : literal.starts cursor <;> cases second : parenthesized.starts cursor <;>
    simp only [Rule.require, expression, expressionOf, Rule.choice, expressionForms, List.any_cons,
      List.find?_cons, starts, parse, first, second]

theorem parenthesizedBody_congr {one two : Rule Expression} {depth : Nat}
    (alike : ∀ cursor, cursor.depth = depth → one.require cursor = two.require cursor)
    {inside : Cursor} (equal : inside.depth = depth) :
    parenthesizedBody one inside = parenthesizedBody two inside := by
  have opened : (token (.punctuation .openParen) inside).2.depth = depth :=
    ((token_lineBound (by simp)).trace inside).depth_eq.trans equal
  unfold parenthesizedBody
  cases found : (token (.punctuation .openParen) inside).1 with
  | none => rw [bind_none found, bind_none found]
  | some opening =>
      rw [bind_some found, bind_some found]
      simp only [bind, alike _ opened]

/-- The rule enters a level, reads any expression inside and leaves the level again, or ends with
the line where the level is refused. -/
theorem parenthesized_parse (cursor : Cursor) :
    parenthesized.parse cursor =
      match cursor.enterNested with
      | (false, stuck) => (none, stuck.skipRestOfLine)
      | (true, inside) =>
          let (result, behind) := parenthesizedBody expression inside
          (result, behind.leaveNested) := by
  rcases entered : cursor.enterNested with ⟨enters, inside⟩
  cases enters with
  | false => exact parenthesizedWithin_refused cursor.levels entered
  | true =>
      have same : parenthesizedBody (expressionOf (parenthesizedWithin inside.levels)) inside =
          parenthesizedBody expression inside := by
        refine parenthesizedBody_congr (fun place equal => ?_) rfl
        -- The levels that are left come from the depth, which is the same throughout.
        have left : inside.levels = place.levels := congrArg (maxNesting - ·) equal.symm
        rw [left, expressionOf_require]
      show (parenthesizedWithin cursor.levels).parse cursor = _
      rw [Cursor.levels_of_entered entered]
      simp only [parenthesizedWithin, Rule.startingAt, entered, same]

/-! ## Statements within the levels that are left -/

theorem assignmentAfter_within {levels : Nat} (operators : List Operator) {left : Expression}
    (before : left.Within levels) :
    Gives (·.toExpression.Within levels) (assignmentAfter operators Grammar.python left) := by
  refine .andThen fun token => ?_
  split
  · next operator _ =>
    refine .bind (python_within levels).require fun right behind => .pure ?_
    exact before.assignment behind operator _
  · intro cursor value found
    cases found

theorem definition_within (levels : Nat) :
    Gives (fun parts => ∀ binding ∈ parts.2, binding.toExpression.Within levels) definition := by
  refine .bind (reference_within levels).require.attempt fun left before => ?_
  cases left with
  | none => exact .pure (by simp)
  | some left =>
      have assigned := (assignmentAfter_within defineOperators (before left rfl)).attempt
      refine .andThen fun opening => ?_
      cases opening with
      | none => exact .bind assigned fun binding holds => .pure holds
      | some _ =>
          refine .andThen fun index => ?_
          cases index with
          | none => exact .pure (by simp)
          | some _ =>
              refine .andThen fun closing => ?_
              cases closing with
              | none => exact .pure (by simp)
              | some _ => exact .bind assigned fun binding holds => .pure holds

theorem define_within (levels : Nat) : Gives (·.Within levels) define.parse := by
  refine .andThen fun head => .andThen fun priority => ?_
  refine .bind (definition_within levels) fun parts holds => .andThen fun span => .pure ?_
  intro part member
  simp only [Statement.parts, List.mem_cons, List.mem_append, List.mem_map,
    Option.mem_toList] at member
  rcases member with rfl | ⟨code, -, rfl⟩ | ⟨binding, found, rfl⟩
  · exact .literal priority
  · exact .python code
  · exact holds binding found

theorem defaultValue_within (levels : Nat) : Gives (·.Within levels) defaultValue.parse := by
  have assigned : Gives (fun binding : Assignment => binding.toExpression.Within levels)
      (assignment reference [.assign] Grammar.python).require :=
    .require (.bind (reference_within levels).require fun left before =>
      assignmentAfter_within [.assign] before)
  refine .andThen fun head => .andThen fun priority => ?_
  refine .bind assigned.attempt fun made holds => .andThen fun span => .pure ?_
  intro part member
  simp only [Statement.parts, List.mem_cons, List.mem_map, Option.mem_toList] at member
  rcases member with rfl | ⟨binding, found, rfl⟩
  · exact .literal priority
  · exact holds binding found

/-- Python alone is within any levels. -/
private theorem codes_within (levels : Nat) (code : Option PythonCode) :
    ∀ part ∈ code.toList.map Expression.python, part.Within levels := by
  intro part member
  obtain ⟨code, -, rfl⟩ := List.mem_map.1 member
  exact .python code

theorem jump_within (levels : Nat) : Gives (·.Within levels) jump.parse := by
  refine .andThen fun head => .andThen fun computed => ?_
  cases computed with
  | some _ => exact .andThen fun code => .andThen fun span => .pure (codes_within levels code)
  | none => exact .andThen fun target => .andThen fun span => .pure (codes_within levels none)

theorem pass_within (levels : Nat) : Gives (·.Within levels) pass.parse :=
  .andThen fun _ => .pure (codes_within levels none)

theorem pythonLine_within (levels : Nat) : Gives (·.Within levels) pythonLine.parse :=
  .andThen fun _ => .andThen fun code => .andThen fun _ => .pure (codes_within levels code)

section Counted

variable (depth : Nat)

theorem parameter_nests :
    Nests depth (fun parameter => ∀ part ∈ parameter.default, part.Within (maxNesting - depth))
      parameter := by
  refine .andThen (token_lineBound (by simp)) fun token => ?_
  refine .andThen (.bind (text_lineBound token) fun _ => .pure _) fun name => ?_
  refine .andThen (tokenIf_lineBound (by simp)) fun assigned => ?_
  cases assigned with
  | some _ => exact .bind (expression_nests depth).require.attempt fun value holds => .pure holds
  | none => exact .pure (by simp)

theorem labelHead_nests :
    Nests depth (fun head => ∀ parameter ∈ head.parameters, ∀ part ∈ parameter.default,
      part.Within (maxNesting - depth)) labelHead := by
  refine .andThen nameIdentifier_lineBound.attempt fun name => ?_
  refine .bind ((parameter_nests depth).parenthesizedList _) fun parameters holds => ?_
  exact .andThen (token_lineBound (by simp)).attempt fun _ => .pure holds

theorem labelLine_nests : Nests depth (·.Within (maxNesting - depth)) labelLine.parse := by
  refine .andThen (token_lineBound (by simp)) fun start => ?_
  refine .bind (labelHead_nests depth) fun head holds => ?_
  refine .andThen (spanFrom_lineBound _) fun span => .pure fun part member => ?_
  obtain ⟨parameter, among, found⟩ := List.mem_filterMap.1 member
  exact holds parameter among part found

theorem callTail_nests :
    Nests depth (fun parts => ∀ argument ∈ parts.1, argument.Within (maxNesting - depth))
      callTail := by
  refine .bind ((expression_nests depth).require.parenthesizedList _) fun arguments holds => ?_
  refine .andThen (tokenIf_lineBound (by simp)) fun site => ?_
  cases site with
  | some _ => exact .andThen nameIdentifier_lineBound.attempt fun _ => .pure holds
  | none => exact .pure holds

theorem call_nests : Nests depth (·.Within (maxNesting - depth)) call.parse := by
  refine .andThen (token_lineBound (by simp)) fun head => ?_
  refine .andThen (tokenIf_lineBound (by simp)) fun computed => ?_
  cases computed with
  | some _ =>
      refine .andThen pythonCode_lineBound.attempt fun code => ?_
      refine .andThen (spanFrom_lineBound _) fun span => .pure ?_
      simpa [Statement.Within, Statement.parts] using codes_within (maxNesting - depth) code
  | none =>
      refine .andThen (tokenIf_lineBound (by simp)) fun screen => ?_
      cases screen with
      | some _ =>
          refine .andThen nameIdentifier_lineBound.attempt fun screen => ?_
          refine .andThen skipRestOfLine_lineBound fun _ => ?_
          exact .andThen (spanFrom_lineBound _) fun span => .pure (codes_within _ none)
      | none =>
          refine .andThen nameIdentifier_lineBound.attempt fun target => ?_
          cases target with
          | none => exact .andThen (spanFrom_lineBound _) fun span => .pure (codes_within _ none)
          | some target =>
              refine .bind (callTail_nests depth) fun parts holds => ?_
              exact .andThen (spanFrom_lineBound _) fun span => .pure holds

theorem return_nests : Nests depth (·.Within (maxNesting - depth)) «return».parse := by
  refine .andThen (token_lineBound (by simp)) fun head => ?_
  refine .bind (expression_nests depth).optional fun value holds => ?_
  exact .andThen (spanFrom_lineBound _) fun span => .pure fun part member =>
    holds part (Option.mem_toList.1 member)

theorem pause_nests : Nests depth (·.Within (maxNesting - depth)) pause.parse := by
  refine .andThen (token_lineBound (by simp)) fun head => ?_
  refine .bind (expression_nests depth).optional fun value holds => ?_
  exact .andThen (spanFrom_lineBound _) fun span => .pure fun part member =>
    holds part (Option.mem_toList.1 member)

theorem lineStatement_nests :
    Nests depth (·.Within (maxNesting - depth)) lineStatement.parse := by
  apply Nests.choice
  intro rule member
  simp only [lineForms, List.cons_append, List.nil_append, List.mem_cons, List.not_mem_nil,
    or_false] at member
  rcases member with rfl | rfl | rfl | rfl | rfl | rfl | rfl | rfl | rfl
  · exact (define_within _).nests define_opens.lineBound.parse
  · exact (defaultValue_within _).nests defaultValue_opens.lineBound.parse
  · exact labelLine_nests depth
  · exact (jump_within _).nests jump_opens.lineBound.parse
  · exact call_nests depth
  · exact return_nests depth
  · exact (pass_within _).nests pass_opens.lineBound.parse
  · exact pause_nests depth
  · exact (pythonLine_within _).nests pythonLine_opens.lineBound.parse

end Counted

/-! ## Blocks within the levels that are left -/

/-- A node inside no more labels, and with its expressions inside no more labels and parentheses,
than there are levels. -/
def Fits (node : Nat × Statement) : Prop :=
  node.1 ≤ maxNesting ∧ ∀ inner ∈ node.2.expressions, node.1 + inner.1 ≤ maxNesting

theorem fits_of_within {depth : Nat} {statement : Statement} (room : depth ≤ maxNesting)
    (within : statement.Within (maxNesting - depth)) : Fits (depth, statement) := by
  refine ⟨room, fun inner member => ?_⟩
  obtain ⟨part, among, inside⟩ := List.mem_flatMap.1 member
  have := within part among 0 inner inside
  show depth + inner.1 ≤ maxNesting
  omega

/-- Bodies whose nodes fit, one level deeper than the label. -/
def BodiesFit (bodies : BodyReader) : Prop :=
  ∀ indent cursor, cursor.depth ≤ maxNesting →
    ∀ node ∈ Statement.nodesOfAll (cursor.depth + 1) (bodies.read indent cursor).1, Fits node

theorem ownLine_within (cursor : Cursor) :
    ∀ statement ∈ (ownLine cursor).1, statement.Within (maxNesting - cursor.depth) := by
  unfold ownLine
  split
  · exact (lineStatement_nests cursor.depth cursor rfl).2
  · simp

/-- The step of a line. -/
theorem line_fits {bodies : BodyReader} (inside : BodiesFit bodies) {cursor : Cursor}
    (more : cursor.hasNext = true) (room : cursor.depth ≤ maxNesting) :
    ∀ statement ∈ (line bodies cursor).1, ∀ node ∈ statement.nodes cursor.depth, Fits node := by
  obtain ⟨head, rest, next, journey⟩ := ownLine_takes more
  have same : (ownLine cursor).2.depth = cursor.depth := journey.depth_eq
  have own := ownLine_within cursor
  rw [line_eq]
  split
  · next label unread span behind equal =>
    rw [equal] at own same
    rintro _ ⟨⟩ node member
    rcases List.mem_cons.1 member with rfl | below
    · exact fits_of_within room (show Statement.Within _ _ from own (.label label unread span) rfl)
    · have fits := inside span.start.column behind (same.symm ▸ room) node
      rw [same] at fits
      exact fits below
  · next other =>
    intro statement found node member
    cases statement with
    | label head body span => exact (other head body span _ (Prod.ext found rfl)).elim
    | _ =>
        obtain rfl := List.mem_singleton.1 member
        exact fits_of_within room (own _ found)

/-- The run over a block. -/
theorem blockWith_fits {bodies : BodyReader} (moves : BodiesJourney bodies)
    (inside : BodiesFit bodies) (parent : Option Nat) (cursor : Cursor)
    (room : cursor.depth ≤ maxNesting) :
    ∀ node ∈ Statement.nodesOfAll cursor.depth (blockWith bodies parent cursor).1, Fits node := by
  fun_induction blockWith bodies parent cursor with
  | case1 cursor start more first rest ih =>
      have present := hasNext_of_goesOn more
      have begins : start.depth = cursor.depth := cursor.skipEmptyLines_journey.depth_eq
      obtain ⟨head, tail, next, journey⟩ := line_takes moves present
      have same : (behindLine start (line bodies start).2).depth = cursor.depth := by
        rw [behindLine_eq bodies present, journey.depth_eq]
        exact begins
      rw [same] at ih
      intro node member
      obtain ⟨statement, among, inner⟩ := Statement.mem_nodesOfAll.1 member
      rcases List.mem_append.1 among with here | later
      · have own := line_fits inside present (begins.symm ▸ room) statement
          (Option.mem_toList.1 here) node
        rw [begins] at own
        exact own inner
      · exact ih room node (Statement.mem_nodesOfAll.2 ⟨statement, later, inner⟩)
  | case2 cursor start done => simp [Statement.nodesOfAll]

theorem bodiesWithin_fit (levels : Nat) : BodiesFit (bodiesWithin levels) := by
  induction levels with
  | zero => simp [BodiesFit, bodiesWithin, Statement.nodesOfAll]
  | succ levels ih =>
      intro indent cursor room
      by_cases full : cursor.depth ≥ maxNesting
      · simp [bodiesWithin, Cursor.enterNested, if_pos full, Statement.nodesOfAll]
      · simp only [bodiesWithin, Cursor.enterNested, if_neg full]
        exact blockWith_fits (bodiesWithin_journey levels) ih (some indent)
          { cursor with depth := cursor.depth + 1 } (Nat.lt_of_not_ge full)

/-! ## Rules -/

/-- The rules of the grammar, with all that are put together from them. -/
inductive IsRule : ∀ {α : Type}, Rule α → Prop
  | literal : IsRule literal
  | parenthesized : IsRule parenthesized
  | reference : IsRule reference
  | python : IsRule Grammar.python
  | assignment {left right : Rule Expression} (operators : List Operator) :
      IsRule left → IsRule right → IsRule (assignment left operators right)
  | define : IsRule define
  | defaultValue : IsRule defaultValue
  | label : IsRule label
  | jump : IsRule jump
  | call : IsRule call
  | «return» : IsRule «return»
  | pass : IsRule pass
  | pause : IsRule pause
  | pythonLine : IsRule pythonLine
  | statement : IsRule statement
  | choice {α : Type} {rules : List (Rule α)} :
      (∀ rule ∈ rules, IsRule rule) → IsRule (.choice rules)

private theorem assignment_balanced {left right : Rule Expression} {depth : Nat}
    (operators : List Operator) (before : Nests depth (fun _ => True) left.parse)
    (behind : Nests depth (fun _ => True) right.parse) :
    Nests depth (fun _ => True) (assignment left operators right).parse := by
  refine .bind before.require fun left _ => ?_
  have other : ∀ kind ∈ operators.map Kind.operator, kind ≠ .newline := by
    simp
  refine .andThen (anyToken_lineBound other) fun token => ?_
  split
  · exact .bind behind.require fun _ _ => .pure trivial
  · exact fail_lineBound.nests

private theorem labelWith_balanced (levels depth : Nat) :
    Nests depth (fun _ => True) (labelWith (bodiesWithin levels)).parse := by
  have moves := bodiesWithin_journey levels
  refine .andThen (token_lineBound (by simp)) fun start => ?_
  refine .andThen labelHead_reads.bound fun head => ?_
  refine .andThen (spanFrom_lineBound _) fun span => ?_
  refine .bind (fun place at_ =>
    ⟨place.expectEndOfLine_journey.depth_eq.trans at_, fun _ _ => trivial⟩) fun _ _ => ?_
  refine .bind (fun place at_ =>
    ⟨(moves start.start.column place).depth_eq.trans at_, fun _ _ => trivial⟩) fun body _ => ?_
  exact .pure trivial

private theorem statementWith_balanced (levels depth : Nat) :
    Nests depth (fun _ => True) (statementWith (bodiesWithin levels)).parse := by
  intro cursor equal
  refine ⟨?_, fun _ _ => trivial⟩
  have own := (lineStatement_lineBound.parse.trace cursor).depth_eq.trans equal
  rw [statementWith_parse]
  split
  · next head _ span behind found =>
    rw [found] at own
    have body := bodiesWithin_journey levels span.start.column behind.expectEndOfLine.2
    exact (behind.expectEndOfLine_journey.trans body).depth_eq.trans own
  · exact own

/-- A rule comes back to the depth that it was called at, whether it fails or not. -/
theorem IsRule.balanced {α : Type} {rule : Rule α} (is : IsRule rule) (depth : Nat) :
    Nests depth (fun _ => True) rule.parse := by
  induction is with
  | literal => exact literal_lineBound.parse.nests
  | parenthesized => exact parenthesized_lineBound.parse.nests
  | reference => exact reference_lineBound.parse.nests
  | python => exact python_lineBound.parse.nests
  | assignment operators _ _ before behind => exact assignment_balanced operators before behind
  | define => exact define_opens.lineBound.parse.nests
  | defaultValue => exact defaultValue_opens.lineBound.parse.nests
  | label => exact fun cursor => labelWith_balanced cursor.levels depth cursor
  | jump => exact jump_opens.lineBound.parse.nests
  | call => exact call_opens.lineBound.parse.nests
  | «return» => exact return_opens.lineBound.parse.nests
  | pass => exact pass_opens.lineBound.parse.nests
  | pause => exact pause_opens.lineBound.parse.nests
  | pythonLine => exact pythonLine_opens.lineBound.parse.nests
  | statement => exact fun cursor => statementWith_balanced cursor.levels depth cursor
  | choice _ ih => exact .choice ih

/-- The body of a label is read one level deeper, as long as there is one. -/
theorem bodiesWithin_read (indent : Nat) (cursor : Cursor) :
    (bodiesWithin cursor.levels).read indent cursor =
      if cursor.depth < maxNesting then
        ((block (some indent) { cursor with depth := cursor.depth + 1 }).1,
          (block (some indent) { cursor with depth := cursor.depth + 1 }).2.leaveNested)
      else ([], cursor.recordUnexpected.skipBlock indent) := by
  by_cases room : cursor.depth < maxNesting
  · have entered : cursor.enterNested = (true, { cursor with depth := cursor.depth + 1 }) :=
      if_neg (Nat.not_le.2 room)
    rw [if_pos room, Cursor.levels_of_entered entered]
    simp only [bodiesWithin, entered, block]
  · have refused : cursor.enterNested = (false, cursor.recordUnexpected) :=
      if_pos (Nat.not_lt.1 room)
    rw [if_neg room, bodiesWithin_refused cursor.levels indent refused]

end Grammar

open Grammar

/-- Nesting is bounded and its count is balanced.  A statement has no more labels around it than
there are levels, and an expression no more labels and parentheses; every rule comes back to its
depth, and so each line of a block has the levels of the first one, of which the body of a label
takes one. -/
theorem Document.ofTokens_nesting (source : List Char) (tokens : List Token) :
    (∀ node ∈ (ofTokens source tokens).1.nodes, node.1 ≤ maxNesting ∧
      ∀ inner ∈ node.2.expressions, node.1 + inner.1 ≤ maxNesting) ∧
    (∀ (α : Type) (rule : Rule α), IsRule rule →
      ∀ cursor, (rule.parse cursor).2.depth = cursor.depth) ∧
    (∀ parent first count last, Loop.Rounds (.block parent) first count last →
      last.depth = first.depth) ∧
    ∀ indent cursor, (bodiesWithin cursor.levels).read indent cursor =
      if cursor.depth < maxNesting then
        ((block (some indent) { cursor with depth := cursor.depth + 1 }).1,
          (block (some indent) { cursor with depth := cursor.depth + 1 }).2.leaveNested)
      else ([], cursor.recordUnexpected.skipBlock indent) := by
  refine ⟨?_, fun α rule is cursor => ?_, fun parent first count last rounds => ?_,
    bodiesWithin_read⟩
  · exact blockWith_fits (bodiesWithin_journey _) (bodiesWithin_fit _) none
      (Cursor.ofTokens source tokens) (Nat.zero_le _)
  · exact (is.balanced cursor.depth cursor rfl).1
  · exact rounds.journey.depth_eq

end NovelScript
