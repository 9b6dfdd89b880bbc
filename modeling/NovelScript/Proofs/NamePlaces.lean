import NovelScript.Proofs.Mentions

/-!
# Places of names

The names that a document defines or uses, by their places alone and in source order.  Definitions
and uses come out of a walk apart from each other, but together they are these.
-/

namespace NovelScript

/-! ## Names -/

/-- The places of the names in an expression that are uses. -/
def Expression.names : Expression → List Span
  | .literal _ => []
  | .reference name => [name.span]
  | .parenthesized inner _ => inner.names
  | .assignment _ _ right _ => right.names
  | .python _ => []

def Assignment.names (assignment : Option Assignment) : List Span :=
  (assignment.bind target?).toList.map Reference.span ++
    assignment.toList.flatMap (·.right.names)

def Parameter.names (parameter : Parameter) : List Span :=
  parameter.name.span :: parameter.default.toList.flatMap Expression.names

def LabelHead.names (head : LabelHead) : List Span :=
  head.name.toList.map Identifier.span ++ head.parameters.flatMap Parameter.names

namespace Statement

mutual

/-- The places of the names that a statement defines or uses, in source order. -/
def names : Statement → List Span
  | .define binding => Assignment.names binding.assignment
  | .defaultValue binding => Assignment.names binding.assignment
  | .label head body _ => head.names ++ namesOfAll body
  | .jump transfer => transfer.target.toList.map Identifier.span
  | .call transfer =>
      transfer.target.toList.map Identifier.span ++ transfer.arguments.flatMap Expression.names
  | .return value _ => value.toList.flatMap Expression.names
  | .pause duration _ => duration.toList.flatMap Expression.names
  | .pass _ | .python .. => []

def namesOfAll : List Statement → List Span
  | [] => []
  | statement :: rest => statement.names ++ namesOfAll rest

end

@[simp] theorem namesOfAll_append (first second : List Statement) :
    namesOfAll (first ++ second) = namesOfAll first ++ namesOfAll second := by
  induction first with
  | nil => rfl
  | cons statement rest ih => simp [namesOfAll, ih]

end Statement

/-! ## Definitions and uses -/

theorem Expression.usages_spans (scope : Nat) (expression : Expression) :
    (expression.usages scope).map Usage.span = expression.names := by
  induction expression with
  | literal _ | reference _ | python _ => rfl
  | parenthesized inner span ih => exact ih
  | assignment left operator right span _ ih => exact ih

private theorem usages_spans (scope : Nat) (expressions : List Expression) :
    (expressions.flatMap (Expression.usages scope)).map Usage.span =
      expressions.flatMap Expression.names := by
  simp only [List.map_flatMap, Expression.usages_spans]

/-- Whatever the scopes, the definitions and the uses in a part of a document are its names. -/
def Mentions (definitions : List Definition) (usages : List Usage) (names : List Span) : Prop :=
  (definitions.map Definition.span ++ usages.map Usage.span).Perm names

namespace Mentions

variable {definitions others : List Definition} {usages further : List Usage}
  {names more : List Span}

theorem append (one : Mentions definitions usages names) (two : Mentions others further more) :
    Mentions (definitions ++ others) (usages ++ further) (names ++ more) := by
  refine List.Perm.trans ?_ (List.Perm.append one two)
  simp only [List.map_append, List.append_assoc]
  exact .append_left _ (List.perm_append_comm_assoc ..)

/-- The definitions all stand in front of the uses. -/
theorem of_parts (defined : definitions.map Definition.span = names)
    (used : usages.map Usage.span = more) : Mentions definitions usages (names ++ more) :=
  .of_eq (by rw [defined, used])

theorem of_usages (used : usages.map Usage.span = names) : Mentions [] usages names :=
  .of_eq used

theorem of_definitions (defined : definitions.map Definition.span = names) :
    Mentions definitions [] names :=
  .of_eq ((List.append_nil _).trans defined)

end Mentions

theorem Assignment.mentions (scope : Nat) (assignment : Option Assignment) :
    Mentions (definitions assignment) (usages scope assignment) (names assignment) := by
  refine .of_parts ?_ ?_
  · rw [definitions, List.map_map]
    rfl
  · simp only [usages, List.map_flatMap, Expression.usages_spans]

theorem Parameter.mentions (around inside : Nat) (parameters : List Parameter) :
    Mentions
      (parameters.map fun parameter =>
        ⟨parameter.name.name, .«variable», parameter.name.span, inside⟩)
      (parameters.flatMap (Parameter.usages around)) (parameters.flatMap names) := by
  induction parameters with
  | nil => exact .of_usages rfl
  | cons parameter rest ih =>
      have one : Mentions [⟨parameter.name.name, .«variable», parameter.name.span, inside⟩]
          (parameter.usages around) parameter.names :=
        .of_parts rfl (usages_spans around _)
      exact one.append ih

theorem LabelHead.mentions (around inside : Nat) (head : LabelHead) :
    Mentions (head.nameDefinitions around ++ head.parameterDefinitions inside)
      (head.usages around) head.names := by
  have name : Mentions (head.nameDefinitions around) []
      (head.name.toList.map Identifier.span) := by
    refine .of_definitions ?_
    rw [nameDefinitions, List.map_map]
    rfl
  exact name.append (Parameter.mentions around inside head.parameters)

namespace Statement

mutual

theorem mentions (scope next : Nat) : ∀ statement : Statement,
    Mentions (statement.definitions scope next) (statement.usages scope next) statement.names
  | .define binding => Assignment.mentions scope binding.assignment
  | .defaultValue binding => Assignment.mentions scope binding.assignment
  | .label head body _ =>
      (head.mentions scope next).append (mentionsOfAll next (next + 1) body)
  | .jump transfer => .of_usages (List.map_map ..)
  | .call transfer => by
      refine .of_usages ?_
      rw [usages, List.map_append, usages_spans, names, Identifier.usages, List.map_map]
      rfl
  | .return value _ => .of_usages (usages_spans scope _)
  | .pass _ => .of_usages rfl
  | .pause duration _ => .of_usages (usages_spans scope _)
  | .python .. => .of_usages rfl

theorem mentionsOfAll (scope next : Nat) : ∀ statements : List Statement,
    Mentions (definitionsOfAll scope next statements) (usagesOfAll scope next statements)
      (namesOfAll statements)
  | [] => .of_usages rfl
  | statement :: rest => (mentions scope next statement).append (mentionsOfAll scope _ rest)

end

end Statement

theorem Document.mentions (document : Document) :
    Mentions document.definitions document.usages (Statement.namesOfAll document.statements) :=
  Statement.mentionsOfAll _ _ _

end NovelScript
