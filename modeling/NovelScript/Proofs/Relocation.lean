import NovelScript.Proofs.CompletedLines
import NovelScript.Proofs.CorrespondingStatements
import NovelScript.Proofs.PythonContexts

/-!
# Syntax trees at other places

A syntax tree can be put elsewhere by moving its positions and nothing else.  With more text in
front, or behind, the tokens of a script make the same tree, which has moved as far as they have.
-/

namespace NovelScript

/-! ## Moved positions -/

section
variable (move : Position → Position)

def Span.relocate (span : Span) : Span := ⟨move span.start, move span.stop⟩

def Identifier.relocate (name : Identifier) : Identifier :=
  { name with span := name.span.relocate move }

def Literal.relocate (literal : Literal) : Literal :=
  { literal with span := literal.span.relocate move }

def Reference.relocate (name : Reference) : Reference :=
  { name with span := name.span.relocate move }

def PythonCode.relocate (code : PythonCode) : PythonCode :=
  { code with span := code.span.relocate move }

def Expression.relocate : Expression → Expression
  | .literal value => .literal (value.relocate move)
  | .reference name => .reference (name.relocate move)
  | .parenthesized inner span => .parenthesized inner.relocate (span.relocate move)
  | .assignment left operator right span =>
      .assignment left.relocate operator right.relocate (span.relocate move)
  | .python code => .python (code.relocate move)

def Assignment.relocate (assignment : Assignment) : Assignment where
  left := assignment.left.relocate move
  operator := assignment.operator
  right := assignment.right.relocate move
  span := assignment.span.relocate move

def Parameter.relocate (parameter : Parameter) : Parameter where
  name := parameter.name.relocate move
  default := parameter.default.map (Expression.relocate move)

def Define.relocate (define : Define) : Define where
  priority := define.priority.relocate move
  assignment := define.assignment.map (Assignment.relocate move)
  index := define.index.map (PythonCode.relocate move)
  span := define.span.relocate move

def DefaultValue.relocate (value : DefaultValue) : DefaultValue where
  priority := value.priority.relocate move
  assignment := value.assignment.map (Assignment.relocate move)
  span := value.span.relocate move

def Jump.relocate (jump : Jump) : Jump where
  target := jump.target.map (Identifier.relocate move)
  expression := jump.expression.map (PythonCode.relocate move)
  span := jump.span.relocate move

def Call.relocate (call : Call) : Call where
  target := call.target.map (Identifier.relocate move)
  arguments := call.arguments.map (Expression.relocate move)
  expression := call.expression.map (PythonCode.relocate move)
  screen := call.screen.map (Identifier.relocate move)
  returnSite := call.returnSite.map (Identifier.relocate move)
  span := call.span.relocate move

def LabelHead.relocate (head : LabelHead) : LabelHead where
  name := head.name.map (Identifier.relocate move)
  parameters := head.parameters.map (Parameter.relocate move)

namespace Statement

mutual

/-- The statement with all of its positions moved, and those of the statements in it. -/
def relocate : Statement → Statement
  | .define binding => .define (binding.relocate move)
  | .defaultValue value => .defaultValue (value.relocate move)
  | .label head body span =>
      .label (head.relocate move) (relocateAll body) (span.relocate move)
  | .jump transfer => .jump (transfer.relocate move)
  | .call transfer => .call (transfer.relocate move)
  | .return value span => .return (value.map (Expression.relocate move)) (span.relocate move)
  | .pass span => .pass (span.relocate move)
  | .pause duration span =>
      .pause (duration.map (Expression.relocate move)) (span.relocate move)
  | .python code span => .python (code.map (PythonCode.relocate move)) (span.relocate move)

def relocateAll : List Statement → List Statement
  | [] => []
  | statement :: rest => statement.relocate :: relocateAll rest

end

end Statement

end

/-! ## Trees that stay where they are -/

@[simp] theorem Expression.relocate_id (expression : Expression) :
    expression.relocate id = expression := by
  induction expression with
  | literal value => rfl
  | reference name => rfl
  | parenthesized inner span ih => exact congrArg (Expression.parenthesized · span) ih
  | assignment left operator right span first second =>
      rw [relocate, first, second]
      rfl
  | python code => rfl

@[simp] theorem Expression.relocate_id_eq : Expression.relocate id = id :=
  funext Expression.relocate_id

@[simp] theorem Assignment.relocate_id_eq : Assignment.relocate id = id := by
  funext assignment
  simp only [relocate, Expression.relocate_id]
  rfl

@[simp] theorem Parameter.relocate_id_eq : Parameter.relocate id = id := by
  funext parameter
  simp only [relocate, Expression.relocate_id_eq, Option.map_id]
  rfl

@[simp] theorem Identifier.relocate_id_eq : Identifier.relocate id = id := rfl

@[simp] theorem PythonCode.relocate_id_eq : PythonCode.relocate id = id := rfl

@[simp] theorem Literal.relocate_id_eq : Literal.relocate id = id := rfl

@[simp] theorem Span.relocate_id_eq : Span.relocate id = id := rfl

namespace Statement

mutual

theorem relocate_id : ∀ statement : Statement, statement.relocate id = statement
  | .define binding => by simp [relocate, Define.relocate]
  | .defaultValue value => by simp [relocate, DefaultValue.relocate]
  | .label head body span => by
      simp [relocate, LabelHead.relocate, relocateAll_id body]
  | .jump transfer => by simp [relocate, Jump.relocate]
  | .call transfer => by simp [relocate, Call.relocate]
  | .return value span => by simp [relocate]
  | .pass span => by simp [relocate]
  | .pause duration span => by simp [relocate]
  | .python code span => by simp [relocate]

theorem relocateAll_id : ∀ statements : List Statement, relocateAll id statements = statements
  | [] => rfl
  | statement :: rest => by rw [relocateAll, relocate_id, relocateAll_id]

end

end Statement

/-! ## Corresponding trees -/

theorem Position.behind_compare (front : List Char) (first second : Position) :
    (first.behind front).compare (second.behind front) = first.compare second := by
  have shifted (one two more : Nat) :
      Ord.compare (one + more) (two + more) = Ord.compare one two := by
    simp only [Nat.compare_eq_ite_lt, Nat.add_lt_add_iff_right]
  simp only [compare, behind, shifted]

namespace Correspondence

/-- A script and the one with a text in front of it. -/
def behind (front : List Char) : Correspondence where
  position first second := second = first.behind front
  text := Eq
  column := by
    rintro first second rfl
    rfl
  compare := by
    rintro first second later later' rfl rfl
    exact (Position.behind_compare front first later).symm
  zero := rfl

theorem relocate_option {α : Type} {relation : α → α → Prop} {move : α → α}
    {first second : Option α} (same : Option.Rel relation first second)
    (each : ∀ one two, relation one two → two = move one) : second = first.map move := by
  cases same with
  | none => rfl
  | some here => rw [each _ _ here, Option.map_some]

theorem relocate_list {α : Type} {relation : α → α → Prop} {move : α → α}
    {first second : List α} (same : List.Forall₂ relation first second)
    (each : ∀ one two, relation one two → two = move one) : second = first.map move := by
  induction same with
  | nil => rfl
  | cons here _ ih => rw [each _ _ here, ih, List.map_cons]

variable {front : List Char}

theorem Spans.relocated {first second : Span} (same : (behind front).Spans first second) :
    second = first.relocate (Position.behind front) := by
  obtain ⟨start, stop⟩ := second
  obtain ⟨rfl, rfl⟩ : start = _ ∧ stop = _ := ⟨same.start, same.stop⟩
  rfl

theorem Identifiers.relocated {first second : Identifier}
    (same : (behind front).Identifiers first second) :
    second = first.relocate (Position.behind front) := by
  rw [Identifier.relocate, ← same.span.relocated, same.name]

theorem Literals.relocated {first second : Literal} (same : (behind front).Literals first second) :
    second = first.relocate (Position.behind front) := by
  have text : first.text = second.text := same.text
  rw [Literal.relocate, ← same.span.relocated, same.kind, text]

theorem References.relocated {first second : Reference}
    (same : (behind front).References first second) :
    second = first.relocate (Position.behind front) := by
  rw [Reference.relocate, ← same.span.relocated, same.name]

theorem Codes.relocated {first second : PythonCode} (same : (behind front).Codes first second) :
    second = first.relocate (Position.behind front) := by
  have source : first.source = second.source := same.source
  rw [PythonCode.relocate, ← same.span.relocated, same.terminated, source]

theorem Expressions.relocated {first second : Expression}
    (same : (behind front).Expressions first second) :
    second = first.relocate (Position.behind front) := by
  induction same with
  | literal same => rw [same.relocated, Expression.relocate]
  | reference same => rw [same.relocated, Expression.relocate]
  | parenthesized inner spans ih => rw [ih, spans.relocated, Expression.relocate]
  | assignment operator lefts rights spans ih ih' =>
      rw [ih, ih', spans.relocated, Expression.relocate]
  | python same => rw [same.relocated, Expression.relocate]

theorem Assignments.relocated {first second : Assignment}
    (same : (behind front).Assignments first second) :
    second = first.relocate (Position.behind front) := by
  rw [Assignment.relocate, ← same.left.relocated, ← same.right.relocated, ← same.span.relocated,
    same.operator]

theorem Parameters.relocated {first second : Parameter}
    (same : (behind front).Parameters first second) :
    second = first.relocate (Position.behind front) := by
  rw [Parameter.relocate, ← same.name.relocated,
    ← relocate_option same.default fun _ _ => Expressions.relocated]

theorem LabelHeads.relocated {first second : LabelHead}
    (same : (behind front).LabelHeads first second) :
    second = first.relocate (Position.behind front) := by
  rw [LabelHead.relocate, ← relocate_option same.name fun _ _ => Identifiers.relocated,
    ← relocate_list same.parameters fun _ _ => Parameters.relocated]

theorem Defines.relocated {first second : Define} (same : (behind front).Defines first second) :
    second = first.relocate (Position.behind front) := by
  rw [Define.relocate, ← same.priority.relocated,
    ← relocate_option same.assignment fun _ _ => Assignments.relocated,
    ← relocate_option same.index fun _ _ => Codes.relocated, ← same.span.relocated]

theorem DefaultValues.relocated {first second : DefaultValue}
    (same : (behind front).DefaultValues first second) :
    second = first.relocate (Position.behind front) := by
  rw [DefaultValue.relocate, ← same.priority.relocated,
    ← relocate_option same.assignment fun _ _ => Assignments.relocated, ← same.span.relocated]

theorem Jumps.relocated {first second : Jump} (same : (behind front).Jumps first second) :
    second = first.relocate (Position.behind front) := by
  rw [Jump.relocate, ← relocate_option same.target fun _ _ => Identifiers.relocated,
    ← relocate_option same.expression fun _ _ => Codes.relocated, ← same.span.relocated]

theorem Calls.relocated {first second : Call} (same : (behind front).Calls first second) :
    second = first.relocate (Position.behind front) := by
  rw [Call.relocate, ← relocate_option same.target fun _ _ => Identifiers.relocated,
    ← relocate_list same.arguments fun _ _ => Expressions.relocated,
    ← relocate_option same.expression fun _ _ => Codes.relocated,
    ← relocate_option same.screen fun _ _ => Identifiers.relocated,
    ← relocate_option same.returnSite fun _ _ => Identifiers.relocated, ← same.span.relocated]

namespace Statements

mutual

/-- With a text in front, everything is where it was and only further behind. -/
theorem relocated : ∀ {first second : Statement}, (behind front).Statements first second →
    second = first.relocate (Position.behind front)
  | .define _, _, .define same => by rw [same.relocated, Statement.relocate]
  | .defaultValue _, _, .defaultValue same => by rw [same.relocated, Statement.relocate]
  | .label _ _ _, _, .label heads bodies spans => by
      rw [heads.relocated, relocatedAll bodies, spans.relocated, Statement.relocate]
  | .jump _, _, .jump same => by rw [same.relocated, Statement.relocate]
  | .call _, _, .call same => by rw [same.relocated, Statement.relocate]
  | .return _ _, _, .return values spans => by
      rw [relocate_option values fun _ _ => Expressions.relocated, spans.relocated,
        Statement.relocate]
  | .pass _, _, .pass spans => by rw [spans.relocated, Statement.relocate]
  | .pause _ _, _, .pause durations spans => by
      rw [relocate_option durations fun _ _ => Expressions.relocated, spans.relocated,
        Statement.relocate]
  | .python _ _, _, .python codes spans => by
      rw [relocate_option codes fun _ _ => Codes.relocated, spans.relocated, Statement.relocate]

theorem relocatedAll : ∀ {first second : List Statement},
    List.Forall₂ (behind front).Statements first second →
    second = Statement.relocateAll (Position.behind front) first
  | [], _, .nil => rfl
  | _ :: _, _, .cons here later => by
      rw [relocated here, relocatedAll later, Statement.relocateAll]

end

end Statements

end Correspondence

/-! ## Tokens with more text around -/

namespace Token

/-- A token keeps its text. -/
theorem value_behind {source : List Char} {token : Token} (member : token ∈ ofText source)
    (front more : List Char) :
    (token.behind front).value (front ++ (source ++ more)) = token.value source := by
  obtain ⟨first, lexeme, second, -, rfl, rfl⟩ := exists_split_of_mem_ofText member
  generalize Lexeme.joined first = before
  generalize Lexeme.joined second = after
  have stop : Text.byteLength before + Text.byteLength lexeme.text + Text.byteLength front =
      Text.byteLength (front ++ before) + Text.byteLength lexeme.text := by
    rw [Text.byteLength_append]
    omega
  have around : front ++ (before ++ (lexeme.text ++ after) ++ more) =
      (front ++ before) ++ (lexeme.text ++ (after ++ more)) := by simp
  have start : Text.byteLength before + Text.byteLength front =
      Text.byteLength (front ++ before) := by
    rw [Text.byteLength_append, Nat.add_comm]
  simp only [value, behind, Span.textIn, Token.start, Token.stop, Position.behind,
    Position.after_offset, Position.origin, Nat.zero_add, start, stop, around, Text.slice_append]

theorem readable_behind (source front more : List Char) :
    List.Forall₂ ((Correspondence.behind front).Readable source (front ++ (source ++ more)))
      (ofText source) ((ofText source).map (behind front)) := by
  rw [List.forall₂_map_right_iff, List.forall₂_same]
  intro token member
  have text := (value_behind member front more).symm
  exact ⟨⟨rfl, rfl, ⟨rfl, rfl⟩⟩, text, fun _ => text⟩

end Token

namespace Document

/-- The tokens of a script make the same statements with text in front of them and behind. -/
theorem ofTokens_behind (source front more : List Char) :
    (ofTokens (front ++ (source ++ more))
        ((Token.ofText source).map (Token.behind front))).1.statements =
      Statement.relocateAll (Position.behind front) (ofText source).1.statements := by
  apply Correspondence.Statements.relocatedAll
  exact (Correspondence.block_corresponds (Token.readable_behind source front more)).1

end Document

end NovelScript
