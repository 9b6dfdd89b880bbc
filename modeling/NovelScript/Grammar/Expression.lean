import NovelScript.Grammar.Rule
import NovelScript.Syntax.Expression

/-!
# Expression rules

An expression is a literal, an expression in parentheses or a name with dotted attributes.  Python
stands only where the grammar asks for it.  Parentheses that nest too deep give up the rest of
their line.
-/

namespace NovelScript.Grammar

open Parse

/-! ## Literals and names -/

/-- The next token as the first literal kind it can be read as; nothing, not even an error, if it
is none. -/
def literal : Rule Expression where
  starts cursor := LiteralKind.all.any fun kind => cursor.test (.literal kind)
  parse := do
    let cursor ← look
    match LiteralKind.all.find? fun kind => cursor.test (.literal kind) with
    | none => fail
    | some kind => do
        let token ← token (.literal kind)
        pure (.literal ⟨kind, ← text token, token.span⟩)

/-- Read attributes behind `path`; only the first segment of a name must be an identifier. -/
def attributes (path : String) (cursor : Cursor) : List Token → Option String × Cursor
  | [] => (some path, cursor)
  | dot :: rest =>
      if dot.hasKind (.punctuation .dot) then
        let behind := cursor.shift dot rest
        match rest with
        | [] => (none, behind.record .unexpectedToken [.identifier])
        | name :: rest =>
            if name.isName then
              attributes (path ++ "." ++ name.value cursor.source) (behind.shift name rest) rest
            else (none, behind.record .unexpectedToken [.identifier])
      else (some path, cursor)

def reference : Rule Expression :=
  .startingAt .identifier do
    let first ← token .identifier
    let path ← text first
    let name ← (fun cursor => attributes path cursor cursor.upcoming : Parse String)
    pure (.reference ⟨name, ← spanFrom first.start⟩)

/-! ## Parentheses -/

def expressionForms (parenthesized : Rule Expression) : List (Rule Expression) :=
  [literal, parenthesized, reference]

def expressionOf (parenthesized : Rule Expression) : Rule Expression :=
  .choice (expressionForms parenthesized)

def parenthesizedBody (inner : Rule Expression) : Parse Expression := do
  let opening ← token (.punctuation .openParen)
  let inner ← inner.require
  let _ ← token (.punctuation .closeParen)
  pure (.parenthesized inner (← spanFrom opening.start))

/-- Parentheses with so many levels left for further ones inside. -/
def parenthesizedWithin : Nat → Rule Expression
  | 0 =>
      .startingAt (.punctuation .openParen) fun cursor =>
        (none, cursor.recordUnexpected.skipRestOfLine)
  | levels + 1 =>
      .startingAt (.punctuation .openParen) fun cursor =>
        match cursor.enterNested with
        | (false, stuck) => (none, stuck.skipRestOfLine)
        | (true, inside) =>
            let (result, behind) :=
              parenthesizedBody (expressionOf (parenthesizedWithin levels)) inside
            (result, behind.leaveNested)

def parenthesized : Rule Expression :=
  .startingAt (.punctuation .openParen) fun cursor =>
    (parenthesizedWithin cursor.levels).parse cursor

def expression : Rule Expression := expressionOf parenthesized

/-- A level that is refused is the end of the parentheses, and where none is left the rule does the
same. -/
theorem parenthesizedWithin_refused (levels : Nat) {cursor stuck : Cursor}
    (refused : cursor.enterNested = (false, stuck)) :
    (parenthesizedWithin levels).parse cursor = (none, stuck.skipRestOfLine) := by
  cases levels with
  | zero => exact Cursor.eq_recordUnexpected_of_refused refused ▸ rfl
  | succ levels => simp only [parenthesizedWithin, Rule.startingAt, refused]

/-! ## Python -/

def pythonCode : Parse PythonCode := do
  let token ← token .python
  pure ⟨← text token, !token.isInvalid, token.span⟩

def python : Rule Expression :=
  .startingAt .python do pure (.python (← pythonCode))

/-! ## Assignments -/

/-- The operator and right side behind a left side that was already read. -/
def assignmentAfter (operators : List Operator) (right : Rule Expression) (left : Expression) :
    Parse Assignment := do
  let token ← anyToken (operators.map .operator)
  match token.kind with
  | .operator operator => do
      let right ← right.require
      pure ⟨left, operator, right, ⟨left.span.start, right.span.stop⟩⟩
  | _ => fail

def assignment (left : Rule Expression) (operators : List Operator) (right : Rule Expression) :
    Rule Assignment where
  starts := left.starts
  parse := do assignmentAfter operators right (← left.require)

/-! ## Nothing is put back -/

theorem literal_advances : literal.parse.Advances := by
  refine Advances.bind look_advances fun cursor => ?_
  split
  · exact fail_advances
  · refine Advances.bind (token_advances _) fun token => ?_
    exact Advances.bind (text_advances _) fun _ => Advances.pure _

theorem attributes_suffix (path : String) (cursor : Cursor) (tokens : List Token)
    (equal : cursor.upcoming = tokens) : (attributes path cursor tokens).2.upcoming <:+ tokens := by
  fun_induction attributes path cursor tokens with
  | case1 => simp [equal]
  | case2 path cursor dot isDot behind => simp [behind]
  | case3 path cursor dot isDot name rest isName behind ih =>
      exact (ih rfl).trans ((List.suffix_cons name rest).trans (List.suffix_cons dot _))
  | case4 path cursor dot isDot name rest notName behind => simp [behind]
  | case5 path cursor dot rest notDot => exact equal ▸ List.suffix_refl _

theorem reference_advances : reference.parse.Advances := by
  refine Advances.bind (token_advances _) fun first => ?_
  refine Advances.bind (text_advances _) fun path => ?_
  refine Advances.bind (fun cursor => attributes_suffix path cursor _ rfl) fun name => ?_
  exact Advances.bind (spanFrom_advances _) fun _ => Advances.pure _

theorem expressionOf_advances {parenthesized : Rule Expression}
    (advances : parenthesized.parse.Advances) : (expressionOf parenthesized).parse.Advances := by
  apply Rule.choice_advances
  intro rule member
  simp only [expressionForms, List.mem_cons, List.not_mem_nil, or_false] at member
  rcases member with rfl | rfl | rfl
  · exact literal_advances
  · exact advances
  · exact reference_advances

theorem parenthesizedBody_advances {inner : Rule Expression} (advances : inner.parse.Advances) :
    (parenthesizedBody inner).Advances := by
  refine Advances.bind (token_advances _) fun opening => ?_
  refine Advances.bind (Rule.require_advances advances) fun inner => ?_
  refine Advances.bind (token_advances _) fun closing => ?_
  exact Advances.bind (spanFrom_advances _) fun _ => Advances.pure _

theorem parenthesizedWithin_advances (levels : Nat) :
    (parenthesizedWithin levels).parse.Advances := by
  induction levels with
  | zero => exact fun cursor => Cursor.skipRestOfLine_suffix cursor.recordUnexpected
  | succ levels ih =>
      intro cursor
      have entered := cursor.enterNested_upcoming
      have body := parenthesizedBody_advances (expressionOf_advances ih)
      simp only [parenthesizedWithin, Rule.startingAt]
      split
      · next stuck equal =>
          rw [equal] at entered
          exact entered ▸ Cursor.skipRestOfLine_suffix stuck
      · next inside equal =>
          rw [equal] at entered
          exact entered ▸ body inside

theorem parenthesized_advances : parenthesized.parse.Advances :=
  fun cursor => parenthesizedWithin_advances cursor.levels cursor

theorem expression_advances : expression.parse.Advances :=
  expressionOf_advances parenthesized_advances

theorem pythonCode_advances : pythonCode.Advances := by
  refine Advances.bind (token_advances _) fun token => ?_
  exact Advances.bind (text_advances _) fun _ => Advances.pure _

theorem python_advances : python.parse.Advances :=
  Advances.bind pythonCode_advances fun _ => Advances.pure _

theorem assignmentAfter_advances (operators : List Operator) {right : Rule Expression}
    (advances : right.parse.Advances) (left : Expression) :
    (assignmentAfter operators right left).Advances := by
  refine Advances.bind (anyToken_advances _) fun token => ?_
  split
  · exact Advances.bind (Rule.require_advances advances) fun _ => Advances.pure _
  · exact fail_advances

theorem assignment_advances {left right : Rule Expression} (operators : List Operator)
    (leftAdvances : left.parse.Advances) (rightAdvances : right.parse.Advances) :
    (assignment left operators right).parse.Advances :=
  Advances.bind (Rule.require_advances leftAdvances)
    fun left => assignmentAfter_advances operators rightAdvances left

end NovelScript.Grammar
