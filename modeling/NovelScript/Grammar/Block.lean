import NovelScript.Grammar.Statement
import NovelScript.Syntax.Document

/-!
# Labels and blocks

A block is a run of lines; inside a label it goes on as long as the lines are indented deeper than
the label.  Lines that start no statement are passed over, since much of a script is not modelled
here.  A label that nests too deep keeps its head and loses its body.
-/

namespace NovelScript.Grammar

open Parse

/-! ## Labels -/

/-- A way to read the body of a label that starts in a given column. -/
structure BodyReader where
  read : Nat → Cursor → List Statement × Cursor
  suffix : ∀ indent cursor, (read indent cursor).2.upcoming <:+ cursor.upcoming

def parameter : Parse Parameter := do
  let name ← identifier (← token .identifier)
  match ← tokenIf (.operator .assign) with
  | some _ => pure ⟨name, ← attempt expression.require⟩
  | none => pure ⟨name, none⟩

theorem parameter_advances : parameter.Advances := by
  refine Advances.bind (token_advances _) fun token => ?_
  refine Advances.bind (identifier_advances _) fun name => ?_
  refine Advances.bind (tokenIf_advances _) fun assigned => ?_
  cases assigned with
  | some _ =>
      exact Advances.bind (Rule.require_advances expression_advances).attempt
        fun _ => Advances.pure _
  | none => exact Advances.pure _

def labelHead : Parse LabelHead := do
  let name ← attempt nameIdentifier
  let parameters ← parenthesizedList parameter parameter_advances
  let _ ← attempt (token (.punctuation .colon))
  pure ⟨name, parameters⟩

theorem labelHead_advances : labelHead.Advances := by
  refine Advances.bind nameIdentifier_advances.attempt fun name => ?_
  refine Advances.bind (parenthesizedList_advances _ _) fun parameters => ?_
  exact Advances.bind (token_advances _).attempt fun _ => Advances.pure _

/-- A label with its body.  It ends with the last statement inside, or with its head if there is
none. -/
def labelWith (bodies : BodyReader) : Rule Statement :=
  .startingAt (.keyword .label) do
    let start ← token (.keyword .label)
    let head ← labelHead
    let headSpan ← spanFrom start.start
    move fun cursor => cursor.expectEndOfLine.2
    let body ← (fun cursor =>
      let (body, behind) := bodies.read start.start.column cursor
      (some body, behind) : Parse (List Statement))
    let stop := match body.getLast? with
      | some last => last.span.stop
      | none => headSpan.stop
    pure (.label head body ⟨start.start, stop⟩)

theorem labelWith_advances (bodies : BodyReader) : (labelWith bodies).parse.Advances := by
  refine Advances.bind (token_advances _) fun start => ?_
  refine Advances.bind labelHead_advances fun head => ?_
  refine Advances.bind (spanFrom_advances _) fun headSpan => ?_
  refine Advances.bind (move_advances Cursor.expectEndOfLine_suffix) fun _ => ?_
  exact Advances.bind (bodies.suffix start.start.column) fun _ => Advances.pure _

/-! ## Statements and blocks -/

def statementForms (bodies : BodyReader) : List (Rule Statement) :=
  [define, defaultValue, labelWith bodies, jump, call, «return», pass, pause, pythonLine]

def statementWith (bodies : BodyReader) : Rule Statement := .choice (statementForms bodies)

theorem statementWith_advances (bodies : BodyReader) :
    (statementWith bodies).parse.Advances := by
  apply Rule.choice_advances
  intro rule member
  simp only [statementForms, List.mem_cons, List.not_mem_nil, or_false] at member
  rcases member with rfl | rfl | rfl | rfl | rfl | rfl | rfl | rfl | rfl
  · exact define_advances
  · exact defaultValue_advances
  · exact labelWith_advances bodies
  · exact jump_advances
  · exact call_advances
  · exact return_advances
  · exact pass_advances
  · exact pause_advances
  · exact pythonLine_advances

/-- One line of a block, which starts at the cursor: its statement, if it has one, and the cursor
behind the line.  The lines of a label's body belong to the label's. -/
def line (bodies : BodyReader) (cursor : Cursor) : Option Statement × Cursor :=
  let rule := statementWith bodies
  if rule.starts cursor then
    match rule.parse cursor with
    | (some statement, behind) =>
        (some statement, if statement.isLabel then behind else behind.expectEndOfLine.2)
    | (none, behind) => (none, behind)
  else (none, cursor.skipLine)

theorem line_suffix (bodies : BodyReader) (cursor : Cursor) :
    (line bodies cursor).2.upcoming <:+ cursor.upcoming := by
  have advances := statementWith_advances bodies cursor
  unfold line
  dsimp only
  split
  · split
    · next statement behind equal =>
        rw [equal] at advances
        split
        · exact advances
        · exact (Cursor.expectEndOfLine_suffix behind).trans advances
    · next behind equal =>
        rw [equal] at advances
        exact advances
  · exact Cursor.skipLine_suffix cursor

/-- The cursor behind a line; a line that consumed nothing is left by one token. -/
def behindLine (before behind : Cursor) : Cursor :=
  if behind.upcoming.length < before.upcoming.length then behind else behind.advance.2

theorem behindLine_length_lt {before behind : Cursor} (more : before.hasNext = true)
    (suffix : behind.upcoming <:+ before.upcoming) :
    (behindLine before behind).upcoming.length < before.upcoming.length := by
  have shorter := suffix.length_le
  unfold behindLine
  split
  · assumption
  · have nonempty : before.upcoming ≠ [] := by
      intro equal
      simp [Cursor.hasNext, equal] at more
    have := List.length_pos_iff.2 nonempty
    simp; omega

theorem behindLine_suffix {before behind : Cursor}
    (suffix : behind.upcoming <:+ before.upcoming) :
    (behindLine before behind).upcoming <:+ before.upcoming := by
  unfold behindLine
  split
  · exact suffix
  · rw [Cursor.advance_upcoming]
    exact (List.tail_suffix _).trans suffix

/-- Whether a block below `parent` goes on at the cursor, which is at the start of a line. -/
def goesOn (parent : Option Nat) (cursor : Cursor) : Bool :=
  cursor.hasNext && parent.all (· < cursor.lineIndent)

/-- The statements of a block; without a `parent` it runs to the end of the input. -/
def blockWith (bodies : BodyReader) (parent : Option Nat) (cursor : Cursor) :
    List Statement × Cursor :=
  let start := cursor.skipEmptyLines
  if goesOn parent start = true then
    let first := (line bodies start).1
    let rest := blockWith bodies parent (behindLine start (line bodies start).2)
    (first.toList ++ rest.1, rest.2)
  else ([], start)
termination_by cursor.upcoming.length
decreasing_by
  rename_i more
  simp only [goesOn, Bool.and_eq_true] at more
  exact Nat.lt_of_lt_of_le
    (behindLine_length_lt more.1 (line_suffix bodies cursor.skipEmptyLines))
    (Cursor.skipEmptyLines_suffix cursor).length_le

theorem blockWith_suffix (bodies : BodyReader) (parent : Option Nat) (cursor : Cursor) :
    (blockWith bodies parent cursor).2.upcoming <:+ cursor.upcoming := by
  fun_induction blockWith bodies parent cursor with
  | case1 cursor start more first rest ih =>
      exact (ih.trans (behindLine_suffix (line_suffix bodies start))).trans
        (Cursor.skipEmptyLines_suffix cursor)
  | case2 cursor start done => exact Cursor.skipEmptyLines_suffix cursor

/-- How to read the bodies of labels with so many levels left for them. -/
def bodiesWithin : Nat → BodyReader
  | 0 =>
      ⟨fun indent cursor => ([], cursor.recordUnexpected.skipBlock indent),
        fun indent cursor => Cursor.skipBlock_suffix indent cursor.recordUnexpected⟩
  | levels + 1 =>
      ⟨fun indent cursor =>
          match cursor.enterNested with
          | (false, stuck) => ([], stuck.skipBlock indent)
          | (true, inside) =>
              let (body, behind) := blockWith (bodiesWithin levels) (some indent) inside
              (body, behind.leaveNested),
        fun indent cursor => by
          have entered := cursor.enterNested_upcoming
          split
          · next stuck equal =>
              rw [equal] at entered
              exact entered ▸ Cursor.skipBlock_suffix indent stuck
          · next inside equal =>
              rw [equal] at entered
              exact entered ▸ blockWith_suffix (bodiesWithin levels) (some indent) inside⟩

/-- A level that is refused is the end of the body, and where none is left the same is done. -/
theorem bodiesWithin_refused (levels indent : Nat) {cursor stuck : Cursor}
    (refused : cursor.enterNested = (false, stuck)) :
    (bodiesWithin levels).read indent cursor = ([], stuck.skipBlock indent) := by
  cases levels with
  | zero => exact Cursor.eq_recordUnexpected_of_refused refused ▸ rfl
  | succ levels => simp only [bodiesWithin, refused]

/-! ## At any nesting -/

def label : Rule Statement :=
  .startingAt (.keyword .label) fun cursor =>
    (labelWith (bodiesWithin cursor.levels)).parse cursor

def statement : Rule Statement where
  starts := (statementWith (bodiesWithin 0)).starts
  parse cursor := (statementWith (bodiesWithin cursor.levels)).parse cursor

def block (parent : Option Nat) (cursor : Cursor) : List Statement × Cursor :=
  blockWith (bodiesWithin cursor.levels) parent cursor

end NovelScript.Grammar

namespace NovelScript.Document

def ofTokens (source : List Char) (tokens : List Token) : Document × List ParseError :=
  let (statements, last) := Grammar.block none (Cursor.ofTokens source tokens)
  let span : Span := match tokens.head?, tokens.getLast? with
    | some first, some final => ⟨first.start, final.stop⟩
    | _, _ => .emptyAt .origin
  (⟨statements, span⟩, last.errors)

def ofText (source : List Char) : Document × List ParseError :=
  ofTokens source (Token.ofText source)

end NovelScript.Document
