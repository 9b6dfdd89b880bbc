import NovelScript.Proofs.Leaves
import NovelScript.Proofs.LineEndingInvariance

/-!
# Texts in syntax trees

Names and numbers stay on their line, and so does everything in a syntax tree that was made of
them, whether its line was read without an error or not.  Only strings and python span lines.
-/

namespace NovelScript

/-! ## Texts on one line -/

namespace Text

def Flat (text : String) : Prop := '\n' ∉ text.toList

instance (text : String) : Decidable (Flat text) :=
  inferInstanceAs (Decidable ('\n' ∉ text.toList))

@[simp] theorem flat_append {first second : String} :
    Flat (first ++ second) ↔ Flat first ∧ Flat second := by
  simp [Flat, not_or]

end Text

/-! ## Parts of syntax trees -/

def Identifier.Flat (identifier : Identifier) : Prop := Text.Flat identifier.name

/-- A literal on one line, unless it is a string. -/
def Literal.Flat (literal : Literal) : Prop := literal.kind ≠ .string → Text.Flat literal.text

/-- The names and numbers of an expression stay on their line. -/
inductive Expression.Flat : Expression → Prop
  | literal {value : Literal} (flat : value.Flat) : Flat (.literal value)
  | reference {name : Reference} (flat : Text.Flat name.name) : Flat (.reference name)
  | parenthesized {inner : Expression} {span : Span} (flat : inner.Flat) :
      Flat (.parenthesized inner span)
  | assignment {left right : Expression} {operator : Operator} {span : Span} (lefts : left.Flat)
      (rights : right.Flat) : Flat (.assignment left operator right span)
  | python {code : PythonCode} : Flat (.python code)

def Parameter.Flat (parameter : Parameter) : Prop :=
  parameter.name.Flat ∧ ∀ value ∈ parameter.default, value.Flat

structure LabelHead.Flat (head : LabelHead) : Prop where
  name : ∀ name ∈ head.name, name.Flat
  parameters : ∀ parameter ∈ head.parameters, parameter.Flat

structure Call.Flat (call : Call) : Prop where
  target : ∀ name ∈ call.target, name.Flat
  arguments : ∀ argument ∈ call.arguments, argument.Flat
  screen : ∀ name ∈ call.screen, name.Flat
  returnSite : ∀ name ∈ call.returnSite, name.Flat

def Assignment.Flat (assignment : Assignment) : Prop := assignment.toExpression.Flat

/-- The names and numbers on the line of a statement stay there; the body of a label has its own. -/
def Statement.Flat : Statement → Prop
  | .define binding =>
      Text.Flat binding.priority.text ∧ ∀ assignment ∈ binding.assignment, assignment.Flat
  | .defaultValue binding =>
      Text.Flat binding.priority.text ∧ ∀ assignment ∈ binding.assignment, assignment.Flat
  | .label head _ _ => head.Flat
  | .jump transfer => ∀ name ∈ transfer.target, name.Flat
  | .call transfer => transfer.Flat
  | .return value _ => ∀ expression ∈ value, expression.Flat
  | .pause duration _ => ∀ expression ∈ duration, expression.Flat
  | .pass _ | .python .. => True

/-! ## Tokens -/

/-- A token that stays on its line if it is a name or a literal other than a string. -/
structure Token.Flat (source : List Char) (token : Token) : Prop where
  name : token.isName = true → Text.Flat (token.value source)
  number : ∀ sort, sort ≠ .string → token.hasKind (.literal sort) = true →
    Text.Flat (token.value source)

theorem Token.flat_of_mem {source : List Char} {token : Token} (member : token ∈ ofText source) :
    token.Flat source := by
  have wellFormed := wellFormed_of_mem_ofText member
  obtain ⟨first, lexeme, second, lexemes, source_, rfl⟩ := exists_split_of_mem_ofText member
  have text := Span.textIn_after (Lexeme.joined first) lexeme.text (Lexeme.joined second)
  rw [← source_] at text
  have flat (kind : lexeme.kind.IsFlat) :
      Text.Flat (value source ⟨lexeme.kind, ⟨Position.origin.after (Lexeme.joined first),
        (Position.origin.after (Lexeme.joined first)).after lexeme.text⟩, lexeme.wrapped⟩) := by
    have unbroken := Lexeme.fromContext_unbroken (lexemes ▸ List.mem_append_right first
      List.mem_cons_self) kind
    intro broken
    rw [value, String.toList_ofList, text] at broken
    simpa [Text.isBreak] using unbroken '\n' broken
  refine ⟨fun name => flat (wellFormed.isFlat_of_isName name), fun sort other has => flat ?_⟩
  rw [wellFormed.hasKind_iff (by simpa using other) (by simp)] at has
  simpa [show lexeme.kind = _ from has, Kind.IsFlat] using other

/-! ## Leaves -/

variable {source : List Char}

theorem Reference.path_flat {name : String} {segments : List (Token × Token)}
    (start : Text.Flat name) (rest : ∀ segment ∈ segments, Text.Flat (segment.2.value source)) :
    Text.Flat (path source name segments) := by
  induction segments generalizing name with
  | nil => exact start
  | cons segment segments ih =>
      obtain ⟨here, later⟩ := List.forall_mem_cons.1 rest
      have dot : Text.Flat (name ++ ".") := Text.flat_append.2 ⟨start, by decide⟩
      exact ih (Text.flat_append.2 ⟨dot, here⟩) later

theorem Reference.MadeOf.flat {reference : Reference} {first : Token}
    {segments : List (Token × Token)} (made : reference.MadeOf source first segments) :
    Text.Flat reference.name := by
  have start := (Token.flat_of_mem made.first_mem).name (by simp [Token.isName, made.head])
  have rest (segment : Token × Token) (member : segment ∈ segments) :
      Text.Flat (segment.2.value source) :=
    (Token.flat_of_mem (made.segment_mem member).2).name (made.dotted segment member).2
  rw [made.name]
  exact path_flat start rest

namespace Leaf.IsRead

theorem identifier {name : Identifier} (read : (Leaf.identifier name).IsRead source) :
    name.Flat := by
  obtain ⟨token, member, isName, rfl⟩ := read
  exact (Token.flat_of_mem member).name isName

theorem literal {value : Literal} (read : (Leaf.literal value).IsRead source) : value.Flat := by
  obtain ⟨token, member, has, equal⟩ := read
  intro number
  rw [equal]
  exact (Token.flat_of_mem member).number value.kind number has

end Leaf.IsRead

namespace AllRead

theorem expression {expression : Expression} (read : AllRead source expression.leaves) :
    expression.Flat := by
  induction expression with
  | literal value => exact .literal (Leaf.IsRead.literal (read _ List.mem_cons_self))
  | reference name =>
      obtain ⟨first, segments, made⟩ := read (.reference name) List.mem_cons_self
      exact .reference made.flat
  | parenthesized inner span ih => exact .parenthesized (ih read)
  | assignment left operator right span lefts rights =>
      obtain ⟨one, two⟩ := List.forall_mem_append.1 read
      exact .assignment (lefts one) (rights two)
  | python code => exact .python

theorem expressions {expressions : List Expression}
    (read : AllRead source (expressions.flatMap Expression.leaves)) :
    ∀ expression ∈ expressions, expression.Flat :=
  fun expression member => AllRead.expression fun leaf inside =>
    read leaf (List.mem_flatMap.2 ⟨expression, member, inside⟩)

theorem optional {value : Option Expression}
    (read : AllRead source (value.toList.flatMap Expression.leaves)) :
    ∀ expression ∈ value, expression.Flat :=
  fun expression member => read.expressions expression (Option.mem_toList.2 member)

theorem names {names : Option Identifier}
    (read : AllRead source (names.toList.map .identifier)) : ∀ name ∈ names, name.Flat :=
  fun name member => Leaf.IsRead.identifier
    (read _ (List.mem_map.2 ⟨name, Option.mem_toList.2 member, rfl⟩))

end AllRead

theorem AllRead.assigned {assignment : Option Assignment}
    (read : AllRead source (assignment.toList.flatMap Assignment.leaves)) :
    ∀ one ∈ assignment, one.Flat :=
  fun one member => AllRead.expression fun leaf inside =>
    read leaf (List.mem_flatMap.2 ⟨one, Option.mem_toList.2 member, inside⟩)

theorem AllRead.head {head : LabelHead} (read : AllRead source head.leaves) : head.Flat := by
  obtain ⟨name, parameters⟩ := List.forall_mem_append.1 read
  refine ⟨AllRead.names name, fun parameter member => ?_⟩
  have leaves (leaf : Leaf) (inside : leaf ∈ parameter.leaves) : leaf.IsRead source :=
    parameters leaf (List.mem_flatMap.2 ⟨parameter, member, inside⟩)
  obtain ⟨named, value⟩ := List.forall_mem_cons.1 leaves
  exact ⟨Leaf.IsRead.identifier named, AllRead.optional value⟩

theorem AllRead.call {call : Call} (read : AllRead source call.leaves) : call.Flat := by
  obtain ⟨others, site⟩ := List.forall_mem_append.1 read
  obtain ⟨others, screen⟩ := List.forall_mem_append.1 others
  obtain ⟨others, -⟩ := List.forall_mem_append.1 others
  obtain ⟨target, arguments⟩ := List.forall_mem_append.1 others
  exact ⟨AllRead.names target, AllRead.expressions arguments, AllRead.names screen,
    AllRead.names site⟩

theorem Statement.IsRead.flat {statement : Statement} (read : statement.IsRead source) :
    statement.Flat := by
  have leaves := read.leaves
  have priority (priority : Literal) (there : priority ∈ statement.priority?) :
      Text.Flat priority.text := by
    rcases read.priority priority there with number | ⟨head, -, -, -, rfl⟩
    · exact number.literal (by simp [read.integer priority there])
    · exact (by decide : Text.Flat "0")
  cases statement with
  | define binding =>
      exact ⟨priority _ rfl, AllRead.assigned (List.forall_mem_append.1 leaves).1⟩
  | defaultValue binding => exact ⟨priority _ rfl, AllRead.assigned leaves⟩
  | label head body span => exact AllRead.head leaves
  | jump transfer => exact AllRead.names (List.forall_mem_append.1 leaves).1
  | call transfer => exact AllRead.call leaves
  | «return» value | pause value => exact AllRead.optional leaves
  | pass | python => trivial

/-- Whatever a document was read from, its names and numbers stay on their lines. -/
theorem Document.ofText_flat {node : List Statement × Statement}
    (member : node ∈ (ofText source).1.lineage) : node.2.Flat :=
  (ofText_isRead member).flat

end NovelScript
