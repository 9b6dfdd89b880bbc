import NovelScript.Proofs.Position
import NovelScript.Syntax.Walk

/-!
# Spans of a syntax tree

Every node of a document has a span, and nodes hold others.  Where each span lies within the span
around it, a walk meets expressions only within the labels that are open.
-/

namespace NovelScript

/-! ## Spans -/

namespace Span

/-- Whether both ends of a span are on another. -/
def Within (inner outer : Span) : Prop :=
  outer.contains inner.start = true ∧ outer.contains inner.stop = true

theorem Within.trans {inner middle outer : Span} (one : inner.Within middle)
    (two : middle.Within outer) : inner.Within outer := by
  simp only [Within, contains, Bool.and_eq_true, decide_eq_true_eq] at one two ⊢
  omega

/-- A span in order whose ends are those that the line map has for their offsets. -/
structure Located (lines : LineMap) (span : Span) : Prop where
  ordered : span.start.precedes span.stop = true
  positions : span = lines.spanAt span.start.offset span.stop.offset

theorem Located.within_self {lines : LineMap} {span : Span} (located : span.Located lines) :
    span.Within span := by
  have ordered := located.ordered
  have backward (before : span.stop.offset < span.start.offset) :
      span.start.compare span.stop = .gt :=
    (Position.compare_of_offset_lt before).2
  simp only [Position.precedes, bne_iff_ne, ne_eq] at ordered
  have offsets : span.start.offset ≤ span.stop.offset := Nat.not_lt.1 (mt backward ordered)
  simp [Within, contains, offsets]

end Span

namespace LineMap

variable (lines : LineMap)

@[simp] theorem positionAt_offset (offset : Nat) :
    (lines.positionAt offset).offset = min offset lines.size := by
  unfold positionAt
  dsimp only
  split <;> rfl

@[simp] theorem positionAt_min (offset : Nat) :
    lines.positionAt (min offset lines.size) = lines.positionAt offset := by
  have same : Nat.min (min offset lines.size) lines.size = Nat.min offset lines.size :=
    Nat.min_eq_left (Nat.min_le_right _ _)
  unfold positionAt
  rw [same]

variable {lines} {first last : Nat}

variable (lines) in
private theorem positionAt_eq_or_lt (ordered : first ≤ last) :
    lines.positionAt first = lines.positionAt last ∨
      (lines.positionAt first).offset < (lines.positionAt last).offset := by
  by_cases same : min first lines.size = min last lines.size
  · left
    rw [← positionAt_min, same, positionAt_min]
  · right
    simp only [positionAt_offset]
    omega

theorem positionAt_precedes (ordered : first ≤ last) :
    (lines.positionAt first).precedes (lines.positionAt last) = true := by
  rcases positionAt_eq_or_lt lines ordered with same | before
  · simp [Position.precedes, same, Position.compare_self]
  · simp [Position.precedes, (Position.compare_of_offset_lt before).1]

theorem positionAt_max (ordered : first ≤ last) :
    (lines.positionAt last).max (lines.positionAt first) = lines.positionAt last := by
  unfold Position.max
  rcases positionAt_eq_or_lt lines ordered with same | before
  · simp [same]
  · simp [(Position.compare_of_offset_lt before).2]

theorem spanAt_located (ordered : first ≤ last) : (lines.spanAt first last).Located lines where
  ordered := positionAt_precedes ordered
  positions := by simp [spanAt]

theorem spanAt_within {start stop : Nat} (begins : start ≤ first) (ordered : first ≤ last)
    (ends : last ≤ stop) : (lines.spanAt first last).Within (lines.spanAt start stop) := by
  simp only [Span.Within, Span.contains, spanAt, positionAt_offset, Bool.and_eq_true,
    decide_eq_true_eq]
  omega

end LineMap

/-! ## Trees -/

/-- A node's span with the trees of the nodes directly inside. -/
inductive SpanTree where
  | node (span : Span) (inside : List SpanTree)

namespace SpanTree

def leaf (span : Span) : SpanTree := .node span []

def span : SpanTree → Span
  | .node span _ => span

mutual

def spans : SpanTree → List Span
  | .node span inside => span :: spansOfAll inside

def spansOfAll : List SpanTree → List Span
  | [] => []
  | tree :: rest => tree.spans ++ spansOfAll rest

end

theorem mem_spansOfAll {span : Span} {trees : List SpanTree} :
    span ∈ spansOfAll trees ↔ ∃ tree ∈ trees, span ∈ tree.spans := by
  induction trees with
  | nil => simp [spansOfAll]
  | cons tree rest ih => simp [spansOfAll, ih]

/-- Every span of the tree is located, and lies within the span around it. -/
inductive Nested (lines : LineMap) : SpanTree → Prop
  | node {span : Span} {inside : List SpanTree} (located : span.Located lines)
      (within : ∀ tree ∈ inside, tree.span.Within span)
      (nested : ∀ tree ∈ inside, tree.Nested lines) : Nested lines (.node span inside)

namespace Nested

variable {lines : LineMap} {tree : SpanTree}

theorem located (nested : tree.Nested lines) : tree.span.Located lines := by
  cases nested with
  | node located => exact located

theorem within (nested : tree.Nested lines) : ∀ span ∈ tree.spans, span.Within tree.span := by
  induction nested with
  | node located within nested ih =>
      intro span member
      rcases List.mem_cons.1 member with rfl | inside
      · exact located.within_self
      · obtain ⟨tree, child, found⟩ := mem_spansOfAll.1 inside
        exact (ih tree child span found).trans (within tree child)

end Nested

end SpanTree

open SpanTree

/-! ## Nodes -/

namespace Expression

def spanTree : Expression → SpanTree
  | .literal value => leaf value.span
  | .reference name => leaf name.span
  | .parenthesized inner span => .node span [inner.spanTree]
  | .assignment left _ right span => .node span [left.spanTree, right.spanTree]
  | .python code => leaf code.span

@[simp] theorem spanTree_span (expression : Expression) :
    expression.spanTree.span = expression.span := by
  cases expression <;> rfl

end Expression

def Parameter.spanTrees (parameter : Parameter) : List SpanTree :=
  leaf parameter.name.span :: parameter.default.toList.map Expression.spanTree

def LabelHead.spanTrees (head : LabelHead) : List SpanTree :=
  head.name.toList.map (leaf ·.span) ++ head.parameters.flatMap Parameter.spanTrees

def bindingTrees (priority : Literal) (assignment : Option Assignment)
    (index : Option PythonCode) : List SpanTree :=
  leaf priority.span ::
    (assignment.toList.map (·.toExpression.spanTree) ++ index.toList.map (leaf ·.span))

def Call.spanTrees (call : Call) : List SpanTree :=
  call.target.toList.map (leaf ·.span) ++ call.arguments.map Expression.spanTree ++
    call.expression.toList.map (leaf ·.span) ++ call.screen.toList.map (leaf ·.span) ++
    call.returnSite.toList.map (leaf ·.span)

namespace Statement

mutual

def spanTree : Statement → SpanTree
  | .define binding =>
      .node binding.span (bindingTrees binding.priority binding.assignment binding.index)
  | .defaultValue binding =>
      .node binding.span (bindingTrees binding.priority binding.assignment none)
  | .label head body span => .node span (head.spanTrees ++ spanTrees body)
  | .jump transfer =>
      .node transfer.span (transfer.target.toList.map (leaf ·.span) ++
        transfer.expression.toList.map (leaf ·.span))
  | .call transfer => .node transfer.span transfer.spanTrees
  | .return value span => .node span (value.toList.map Expression.spanTree)
  | .pass span => leaf span
  | .pause duration span => .node span (duration.toList.map Expression.spanTree)
  | .python code span => .node span (code.toList.map (leaf ·.span))

def spanTrees : List Statement → List SpanTree
  | [] => []
  | statement :: rest => statement.spanTree :: spanTrees rest

end

@[simp] theorem spanTree_span (statement : Statement) :
    statement.spanTree.span = statement.span := by
  cases statement <;> simp [spanTree, span, leaf, SpanTree.span]

theorem mem_spanTrees {tree : SpanTree} {statements : List Statement} :
    tree ∈ spanTrees statements ↔ ∃ statement ∈ statements, statement.spanTree = tree := by
  induction statements with
  | nil => simp [spanTrees]
  | cons statement rest ih => simp [spanTrees, ih, eq_comm]

/-- The second statement starts behind the end of the first. -/
def Before (first second : Statement) : Prop :=
  first.span.stop.offset < second.span.start.offset

end Statement

def Document.spanTree (document : Document) : SpanTree :=
  .node document.span (Statement.spanTrees document.statements)

/-! ## Walks -/

namespace Encounter

/-- The spans of the labels that are open behind an encounter, innermost first. -/
def openLabels (spans : List Span) : Encounter → List Span
  | .enterLabel _ span => span :: spans
  | .leaveLabel _ => spans.tail
  | _ => spans

/-- Encounters that leave all labels which they enter, with expressions within `outer` and within
the labels open at them. -/
structure Keeps (outer : Span) (encounters : List Encounter) : Prop where
  balanced : ∀ spans, encounters.foldl openLabels spans = spans
  inside : ∀ before expression after, encounters = before ++ .expression expression :: after →
    expression.span.Within outer ∧ ∀ spans, ∀ span ∈ before.foldl openLabels spans,
      span ∈ spans ∨ expression.span.Within span

namespace Keeps

variable {inner outer : Span} {first second encounters : List Encounter}

theorem nil : Keeps outer [] := ⟨fun _ => rfl, by simp⟩

theorem append (one : Keeps outer first) (two : Keeps outer second) :
    Keeps outer (first ++ second) := by
  refine ⟨fun spans => by rw [List.foldl_append, one.balanced, two.balanced], ?_⟩
  intro before expression after split
  rcases List.append_eq_append_iff.1 split with ⟨rest, rfl, later⟩ | ⟨rest, equal, here⟩
  · obtain ⟨within, labels⟩ := two.inside rest expression after later
    refine ⟨within, fun spans => ?_⟩
    rw [List.foldl_append, one.balanced]
    exact labels spans
  · cases rest with
    | nil =>
        obtain ⟨within, labels⟩ := two.inside [] expression after here.symm
        refine ⟨within, fun spans => ?_⟩
        rw [← List.append_nil before, ← equal, one.balanced]
        exact labels spans
    | cons encounter rest =>
        obtain ⟨rfl, -⟩ := List.cons.inj here
        exact one.inside before expression rest equal

theorem flatMap {items : List α} {walk : α → List Encounter}
    (keeps : ∀ item ∈ items, Keeps outer (walk item)) : Keeps outer (items.flatMap walk) := by
  induction items with
  | nil => exact nil
  | cons item rest ih =>
      rw [List.flatMap_cons]
      exact (keeps item (by simp)).append (ih fun later member => keeps later (by simp [member]))

theorem mono (keeps : Keeps inner encounters) (within : inner.Within outer) :
    Keeps outer encounters :=
  ⟨keeps.balanced, fun before expression after split =>
    ⟨(keeps.inside before expression after split).1.trans within,
      (keeps.inside before expression after split).2⟩⟩

/-- An encounter that is no expression and neither end of a label. -/
theorem other {encounter : Encounter} (same : ∀ spans, openLabels spans encounter = spans)
    (plain : ∀ expression, encounter ≠ .expression expression) : Keeps outer [encounter] := by
  refine ⟨same, fun before expression after split => ?_⟩
  cases before with
  | nil => exact absurd (List.cons.inj split).1 (plain expression)
  | cons _ before => simp at split

theorem expression {expression : Expression} (within : expression.span.Within outer) :
    Keeps outer [.expression expression] := by
  refine ⟨fun _ => rfl, fun before other after split => ?_⟩
  cases before with
  | nil =>
      obtain ⟨equal, -⟩ := List.cons.inj split
      cases equal
      exact ⟨within, fun spans span member => .inl member⟩
  | cons _ before => simp at split

theorem label {head : LabelHead} (keeps : Keeps inner encounters)
    (within : inner.Within outer) :
    Keeps outer (.enterLabel head inner :: (encounters ++ [.leaveLabel head])) := by
  constructor
  · intro spans
    rw [List.foldl_cons, List.foldl_append, keeps.balanced]
    rfl
  · intro before expression after split
    cases before with
    | nil => simp at split
    | cons encounter before =>
        obtain ⟨rfl, rest⟩ := List.cons.inj split
        -- The last encounter leaves the label, so the expression is one of those in front of it.
        have inside : ∃ later, encounters = before ++ .expression expression :: later := by
          rcases List.append_eq_append_iff.1 rest with ⟨more, -, last⟩ | ⟨more, equal, here⟩
          · cases more <;> simp at last
          · cases more with
            | nil => simp at here
            | cons encounter more =>
                obtain ⟨rfl, -⟩ := List.cons.inj here
                exact ⟨more, equal⟩
        obtain ⟨later, equal⟩ := inside
        obtain ⟨here, labels⟩ := keeps.inside before expression later equal
        refine ⟨here.trans within, fun spans span member => ?_⟩
        rcases labels (inner :: spans) span member with opened | around
        · rcases List.mem_cons.1 opened with rfl | opened
          · exact .inr here
          · exact .inl opened
        · exact .inr around

end Keeps

end Encounter

open Encounter

variable {lines : LineMap}

theorem SpanTree.Nested.inside {span : Span} {trees : List SpanTree}
    (nested : (SpanTree.node span trees).Nested lines) :
    ∀ tree ∈ trees, tree.Nested lines ∧ tree.span.Within span := by
  cases nested with
  | node _ within nested => exact fun tree child => ⟨nested tree child, within tree child⟩

private theorem self_keeps {expression : Expression} (nested : expression.spanTree.Nested lines) :
    Keeps expression.span [.expression expression] :=
  .expression (Expression.spanTree_span expression ▸ nested.located.within_self)

theorem Expression.walk_keeps {expression : Expression}
    (nested : expression.spanTree.Nested lines) : Keeps expression.span expression.walk := by
  induction expression with
  | literal value => exact self_keeps nested
  | reference name =>
      exact (self_keeps nested).append (.other (fun _ => rfl) (by simp))
  | parenthesized inner span ih =>
      obtain ⟨child, within⟩ := nested.inside inner.spanTree (by simp)
      rw [spanTree_span] at within
      exact (self_keeps nested).append ((ih child).mono within)
  | assignment left operator right span _ ih =>
      obtain ⟨child, within⟩ := nested.inside right.spanTree (by simp)
      rw [spanTree_span] at within
      exact (self_keeps nested).append ((ih child).mono within)
  | python code => exact self_keeps nested

theorem Expression.walkOption_keeps {outer : Span} {expression : Option Expression}
    (inside : ∀ tree ∈ expression.toList.map spanTree,
      tree.Nested lines ∧ tree.span.Within outer) : Keeps outer (walkOption expression) := by
  cases expression with
  | none => exact .nil
  | some expression =>
      obtain ⟨nested, within⟩ := inside expression.spanTree (by simp)
      rw [spanTree_span] at within
      exact (walk_keeps nested).mono within

private theorem bindingTrees_keeps {outer : Span} {priority : Literal}
    {assignment : Option Assignment} {index : Option PythonCode}
    (inside : ∀ tree ∈ bindingTrees priority assignment index,
      tree.Nested lines ∧ tree.span.Within outer) :
    Keeps outer (Assignment.walkOption assignment) := by
  cases assignment with
  | none => exact .nil
  | some assignment =>
      obtain ⟨nested, within⟩ := inside assignment.toExpression.spanTree (by simp [bindingTrees])
      obtain ⟨child, around⟩ := nested.inside assignment.right.spanTree (by simp)
      rw [Expression.spanTree_span] at around
      exact (Expression.walk_keeps child).mono (around.trans within)

private theorem defaults_keep {outer : Span} {head : LabelHead}
    (inside : ∀ tree ∈ head.spanTrees, tree.Nested lines ∧ tree.span.Within outer) :
    Keeps outer (head.parameters.flatMap (Expression.walkOption ·.default)) := by
  refine .flatMap fun parameter member => ?_
  have inside_ : ∀ tree ∈ parameter.default.toList.map Expression.spanTree,
      tree.Nested lines ∧ tree.span.Within outer := fun tree child =>
    inside tree (List.mem_append_right _
      (List.mem_flatMap.2 ⟨parameter, member, List.mem_cons_of_mem _ child⟩))
  exact Expression.walkOption_keeps inside_

mutual

theorem Statement.walk_keeps : ∀ {statement : Statement}, statement.spanTree.Nested lines →
    Keeps statement.span statement.walk
  | .define binding, nested | .defaultValue binding, nested =>
      (Keeps.other (fun _ => rfl) (by simp)).append (bindingTrees_keeps nested.inside)
  | .label head body span, nested =>
      (defaults_keep fun tree child => nested.inside tree (List.mem_append_left _ child)).append
        (.label (Statement.walkAll_keeps fun tree child =>
          nested.inside tree (List.mem_append_right _ child)) nested.located.within_self)
  | .jump _, _ => .other (fun _ => rfl) (by simp)
  | .call transfer, nested => by
      refine (Keeps.other (fun _ => rfl) (by simp)).append (.flatMap fun argument member => ?_)
      have child : argument.spanTree ∈ transfer.spanTrees := by
        simp only [Call.spanTrees, List.mem_append, List.mem_map]
        exact .inl (.inl (.inl (.inr ⟨argument, member, rfl⟩)))
      obtain ⟨nested, within⟩ := nested.inside argument.spanTree child
      rw [Expression.spanTree_span] at within
      exact (Expression.walk_keeps nested).mono within
  | .return _ _, nested | .pause _ _, nested => Expression.walkOption_keeps nested.inside
  | .pass _, _ | .python _ _, _ => .nil

theorem Statement.walkAll_keeps : ∀ {statements : List Statement} {outer : Span},
    (∀ tree ∈ spanTrees statements, tree.Nested lines ∧ tree.span.Within outer) →
      Keeps outer (walkAll statements)
  | [], _, _ => .nil
  | statement :: rest, outer, inside => by
      obtain ⟨nested, within⟩ := inside statement.spanTree List.mem_cons_self
      rw [spanTree_span] at within
      exact ((Statement.walk_keeps nested).mono within).append
        (Statement.walkAll_keeps fun tree child => inside tree (List.mem_cons_of_mem _ child))

end

/-- Where the spans of a document are nested, a walk meets expressions only within the labels that
are open. -/
theorem Document.walk_keeps {document : Document} (nested : document.spanTree.Nested lines) :
    Keeps document.span document.walk :=
  Statement.walkAll_keeps nested.inside

end NovelScript
