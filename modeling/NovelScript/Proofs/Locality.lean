import NovelScript.Grammar.Block
import NovelScript.Proofs.LineBound

/-!
# Rules within a line

Every rule but the one for labels is bound to its line, and so is the head of a label.
-/

namespace NovelScript

open Parse

namespace Parse

/-! ## Lists -/

theorem separated_trace {α : Type} {item : Parse α} (bound : item.LineBound)
    (advances : item.Advances) (cursor : Cursor) :
    Cursor.Trace cursor (separated item advances cursor).2 := by
  fun_induction separated item advances cursor with
  | case1 cursor behind found => simpa [found] using bound.trace cursor
  | case2 cursor value behind found tested values last equal ih =>
      have started := bound.trace cursor
      rw [found] at started
      obtain ⟨token, rest, next, accepted⟩ := Cursor.next_of_peek tested
      have within := Token.withinLine_of_hasKind (by simp) accepted
      rw [equal, Cursor.advance_eq next] at ih
      exact started.trans (.take next within ih)
  | case3 cursor value behind found tested =>
      have started := bound.trace cursor
      rw [found] at started
      exact started.trans ((token_lineBound (by simp)).trace behind)

theorem separated_extend {α : Type} {item : Parse α} (bound : item.LineBound)
    (advances : item.Advances) {tail : List Token} {short long : Cursor} (ends : LineEnd tail)
    (extends_ : Cursor.Extends tail short long) :
    (separated item advances long).1 = (separated item advances short).1 ∧
      Cursor.Extends tail (separated item advances short).2
        (separated item advances long).2 := by
  fun_induction separated item advances short generalizing long with
  | case1 short behind found =>
      obtain ⟨same, started⟩ := bound.extend ends extends_
      rw [found] at same started
      rw [separated]
      split
      · next last run =>
          rw [run] at started
          exact ⟨rfl, started⟩
      · next value last run =>
          rw [run] at same
          cases same
  | case2 short value behind found tested values last equal ih =>
      obtain ⟨same, started⟩ := bound.extend ends extends_
      rw [found] at same started
      obtain ⟨token, rest, next, accepted⟩ := Cursor.next_of_peek tested
      rw [separated]
      split
      · next longBehind run =>
          rw [run] at same
          cases same
      · next longValue longBehind run =>
          rw [run] at same started
          cases same
          have longTested : longBehind.test (.punctuation .comma) = true :=
            (started.test ends (by simp)).trans tested
          rw [if_pos longTested, Cursor.advance_eq (started.next next)]
          rw [Cursor.advance_eq next] at ih equal
          obtain ⟨sameRest, ended⟩ := ih (started.shift token rest)
          rw [equal] at sameRest ended
          exact ⟨congrArg (value :: ·) sameRest, ended⟩
  | case3 short value behind found tested =>
      obtain ⟨same, started⟩ := bound.extend ends extends_
      rw [found] at same started
      rw [separated]
      split
      · next longBehind run =>
          rw [run] at same
          cases same
      · next longValue longBehind run =>
          rw [run] at same started
          cases same
          rw [if_neg (by rw [started.test ends (by simp)]; exact tested)]
          exact ⟨rfl, ((token_lineBound (by simp)).extend ends started).2⟩

theorem separated_lineBound {α : Type} {item : Parse α} (bound : item.LineBound)
    (advances : item.Advances) :
    LineBound fun cursor =>
      (some (separated item advances cursor).1, (separated item advances cursor).2) := by
  refine ⟨separated_trace bound advances, ?_⟩
  intro tail short long ends extends_
  obtain ⟨same, ended⟩ := separated_extend bound advances ends extends_
  exact ⟨congrArg some same, ended⟩

end Parse

namespace Grammar

/-! ## Expressions -/

theorem literal_lineBound : literal.LineBound := by
  constructor
  · intro tail short long ends extends_
    simp only [literal]
    congr 1
    funext kind
    exact extends_.test ends (by simp)
  · apply LineBound.of_look
    · intro cursor
      split
      · exact fail_lineBound
      · refine .bind (token_lineBound (by simp)) fun token => ?_
        exact .bind (text_lineBound _) fun _ => .pure _
    · intro tail short long ends extends_
      have same : (fun kind => long.test (.literal kind)) = fun kind =>
          short.test (.literal kind) := by
        funext kind
        exact extends_.test ends (by simp)
      simp only [same]

theorem attributes_trace (path : String) (cursor : Cursor) (tokens : List Token)
    (equal : cursor.upcoming = tokens) :
    Cursor.Trace cursor (attributes path cursor tokens).2 := by
  fun_induction attributes path cursor tokens with
  | case1 => exact .refl
  | case2 path cursor dot isDot behind =>
      exact .take equal (Token.withinLine_of_hasKind (by simp) isDot) (.of_record _)
  | case3 path cursor dot isDot name rest isName behind ih =>
      refine .take equal (Token.withinLine_of_hasKind (by simp) isDot) ?_
      exact .take rfl (Token.withinLine_of_isName isName) (ih rfl)
  | case4 path cursor dot isDot name rest notName behind =>
      exact .take equal (Token.withinLine_of_hasKind (by simp) isDot) (.of_record _)
  | case5 path cursor dot rest notDot => exact .refl

theorem attributes_extend (path : String) {tail : List Token} {short long : Cursor}
    (tokens : List Token) (ends : LineEnd tail) (extends_ : Cursor.Extends tail short long) :
    (attributes path long (tokens ++ tail)).1 = (attributes path short tokens).1 ∧
      Cursor.Extends tail (attributes path short tokens).2
        (attributes path long (tokens ++ tail)).2 := by
  fun_induction attributes path short tokens generalizing long with
  | case1 path short =>
      cases tail with
      | nil => exact ⟨rfl, extends_⟩
      | cons token rest =>
          have notDot : ¬token.hasKind (.punctuation .dot) = true := fun isDot =>
            ends.not_withinLine rfl (Token.withinLine_of_hasKind (by simp) isDot)
          simp only [List.nil_append, attributes, if_neg notDot]
          exact ⟨trivial, extends_⟩
  | case2 path short dot isDot =>
      have started := extends_.shift dot []
      simp only [List.cons_append, List.nil_append, attributes, if_pos isDot]
      cases tail with
      | nil => exact ⟨rfl, started.record _ _⟩
      | cons token rest =>
          have notName : ¬token.isName = true := fun isName =>
            ends.not_withinLine rfl (Token.withinLine_of_isName isName)
          simp only [if_neg notName]
          exact ⟨trivial, started.record _ _⟩
  | case3 path short dot isDot name rest isName behind =>
      rename_i ih
      have started := (extends_.shift dot (name :: rest)).shift name rest
      simp only [List.cons_append, attributes, if_pos isDot, if_pos isName, extends_.source]
      exact ih started
  | case4 path short dot isDot name rest notName =>
      have started := extends_.shift dot (name :: rest)
      simp only [List.cons_append, attributes, if_pos isDot, if_neg notName]
      exact ⟨trivial, started.record _ _⟩
  | case5 path short dot rest notDot =>
      simp only [List.cons_append, attributes, if_neg notDot]
      exact ⟨trivial, extends_⟩

theorem attributes_lineBound (path : String) :
    LineBound fun cursor => attributes path cursor cursor.upcoming := by
  constructor
  · exact fun cursor => attributes_trace path cursor _ rfl
  · intro tail short long ends extends_
    rw [extends_.upcoming]
    exact attributes_extend path short.upcoming ends extends_

theorem reference_lineBound : reference.LineBound := by
  apply Rule.startingAt_lineBound (by simp)
  refine .bind (token_lineBound (by simp)) fun first => ?_
  refine .bind (text_lineBound _) fun path => ?_
  refine .bind (attributes_lineBound path) fun name => ?_
  exact .bind (spanFrom_lineBound _) fun _ => .pure _

theorem expressionOf_lineBound {parenthesized : Rule Expression}
    (bound : parenthesized.LineBound) : (expressionOf parenthesized).LineBound := by
  apply Rule.choice_lineBound
  intro rule member
  simp only [expressionForms, List.mem_cons, List.not_mem_nil, or_false] at member
  rcases member with rfl | rfl | rfl
  · exact literal_lineBound
  · exact bound
  · exact reference_lineBound

theorem parenthesizedBody_lineBound {inner : Rule Expression} (bound : inner.LineBound) :
    (parenthesizedBody inner).LineBound := by
  refine .bind (token_lineBound (by simp)) fun opening => ?_
  refine .bind (Rule.require_lineBound bound) fun inner => ?_
  refine .bind (token_lineBound (by simp)) fun closing => ?_
  exact .bind (spanFrom_lineBound _) fun _ => .pure _

/-- A parse one level deeper moves its cursor as it would at this level. -/
private theorem nested_trace {cursor last : Cursor}
    (trace : Cursor.Trace { cursor with depth := cursor.depth + 1 } last) :
    Cursor.Trace cursor last.leaveNested := by
  have depth : last.depth - 1 = cursor.depth := by
    rw [trace.depth_eq]
    rfl
  have moved := trace.atDepth cursor.depth
  unfold Cursor.leaveNested
  rw [depth]
  exact moved

theorem parenthesizedWithin_lineBound (levels : Nat) :
    (parenthesizedWithin levels).LineBound := by
  induction levels with
  | zero =>
      apply Rule.startingAt_lineBound (by simp)
      constructor
      · exact fun cursor => .record (Cursor.skipRestOfLine_trace _)
      · exact fun ends extends_ => ⟨rfl, (extends_.record _ _).skipRestOfLine ends⟩
  | succ levels ih =>
      have body := parenthesizedBody_lineBound (expressionOf_lineBound ih)
      apply Rule.startingAt_lineBound (by simp)
      constructor
      · intro cursor
        simp only [Cursor.enterNested]
        split
        · next stuck equal =>
            split at equal
            · cases equal
              exact .record (Cursor.skipRestOfLine_trace _)
            · cases equal
        · next inside equal =>
            split at equal
            · cases equal
            · cases equal
              exact nested_trace (body.trace _)
      · intro tail short long ends extends_
        simp only [Cursor.enterNested, extends_.depth]
        by_cases capped : short.depth ≥ maxNesting
        · simp only [capped, if_true]
          exact ⟨trivial, (extends_.record _ _).skipRestOfLine ends⟩
        · simp only [capped, if_false]
          have deeper : Cursor.Extends tail { short with depth := short.depth + 1 }
              { long with depth := short.depth + 1 } :=
            ⟨extends_.source, extends_.current, rfl, extends_.upcoming⟩
          obtain ⟨same, ended⟩ := body.extend ends deeper
          refine ⟨same, ended.source, ended.current, ?_, ended.upcoming⟩
          simp only [Cursor.leaveNested, ended.depth]

theorem parenthesized_lineBound : parenthesized.LineBound := by
  apply Rule.startingAt_lineBound (by simp)
  constructor
  · exact fun cursor => (parenthesizedWithin_lineBound cursor.levels).parse.trace cursor
  · intro tail short long ends extends_
    have levels : long.levels = short.levels := by simp only [Cursor.levels, extends_.depth]
    simp only [levels]
    exact (parenthesizedWithin_lineBound short.levels).parse.extend ends extends_

theorem expression_lineBound : expression.LineBound :=
  expressionOf_lineBound parenthesized_lineBound

theorem pythonCode_lineBound : pythonCode.LineBound := by
  refine .bind (token_lineBound (by simp)) fun token => ?_
  exact .bind (text_lineBound _) fun _ => .pure _

theorem python_lineBound : python.LineBound :=
  Rule.startingAt_lineBound (by simp) (.bind pythonCode_lineBound fun _ => .pure _)

theorem assignmentAfter_lineBound (operators : List Operator) {right : Rule Expression}
    (bound : right.LineBound) (left : Expression) :
    (assignmentAfter operators right left).LineBound := by
  have other : ∀ kind ∈ operators.map Kind.operator, kind ≠ .newline := by
    intro kind member
    obtain ⟨operator, -, rfl⟩ := List.mem_map.1 member
    simp
  refine .bind (anyToken_lineBound other) fun token => ?_
  split
  · exact .bind (Rule.require_lineBound bound) fun _ => .pure _
  · exact fail_lineBound

theorem assignment_lineBound {left right : Rule Expression} (operators : List Operator)
    (leftBound : left.LineBound) (rightBound : right.LineBound) :
    (assignment left operators right).LineBound :=
  ⟨leftBound.starts, .bind (Rule.require_lineBound leftBound)
    fun left => assignmentAfter_lineBound operators rightBound left⟩

end Grammar

end NovelScript
