import NovelScript.Analysis
import NovelScript.Proofs.Blocks
import NovelScript.Proofs.LabelScopes
import NovelScript.Proofs.Locations

/-!
# Innermost statements and scopes

Statements next to each other never touch, and each lies within the label around it.  So the
statements at a position stand one directly inside the other, and the way down to the last of them
meets every label whose scope the position lies in.
-/

namespace NovelScript

theorem Span.Within.contains {inner outer : Span} (within : inner.Within outer)
    {position : Position} (on : inner.contains position = true) :
    outer.contains position = true := by
  obtain ⟨start, stop⟩ := within
  simp only [Span.contains, Bool.and_eq_true, decide_eq_true_eq] at start stop on ⊢
  omega

theorem Span.Within.start_le {inner outer : Span} (within : inner.Within outer) :
    outer.start.offset ≤ inner.start.offset := by
  have on := within.1
  simp only [Span.contains, Bool.and_eq_true, decide_eq_true_eq] at on
  exact on.1

namespace Statement

variable {lines : LineMap} {position : Position} {statement : Statement}
  {statements around : List Statement}

/-! ## One level at a time -/

theorem lineage_eq (around : List Statement) (statement : Statement) :
    lineage around statement =
      (around, statement) :: lineageOfAll (statement :: around) statement.children := by
  cases statement <;> rfl

theorem innermost?_eq (position : Position) (statement : Statement) :
    innermost? position statement =
      if statement.span.contains position then
        some ((innermostOfAll? position statement.children).getD statement)
      else none := by
  cases statement <;> rfl

theorem mem_lineageOfAll {node : List Statement × Statement} :
    node ∈ lineageOfAll around statements ↔
      ∃ statement ∈ statements, node ∈ lineage around statement := by
  induction statements with
  | nil => simp [lineageOfAll]
  | cons statement rest ih => simp [lineageOfAll, ih]

/-! ## Statements in order -/

/-- A located statement whose own statements lie within it, stand one behind the other, and are all
in order themselves. -/
inductive Ordered (lines : LineMap) : Statement → Prop
  | intro {statement : Statement} (located : statement.span.Located lines)
      (within : ∀ child ∈ statement.children, child.span.Within statement.span)
      (inOrder : statement.children.Pairwise Before)
      (each : ∀ child ∈ statement.children, child.Ordered lines) : Ordered lines statement

namespace Ordered

theorem located (ordered : statement.Ordered lines) : statement.span.Located lines := by
  cases ordered with
  | intro located => exact located

theorem of_nested (nested : statement.spanTree.Nested lines) {depth : Nat}
    (siblings : ∀ node ∈ statement.nodes depth, node.2.children.Pairwise Before) :
    statement.Ordered lines := by
  generalize equal : statement.spanTree = tree at nested
  induction nested generalizing statement depth with
  | @node span inside located within nested ih =>
      have span_ : span = statement.span := by
        rw [← spanTree_span, equal]
        rfl
      have child (child : Statement) (member : child ∈ statement.children) :
          child.spanTree ∈ inside := by
        cases statement with
        | label head body extent =>
            obtain ⟨-, rfl⟩ := SpanTree.node.inj equal
            exact List.mem_append_right _ (mem_spanTrees.2 ⟨child, member, rfl⟩)
        | _ => cases member
      subst span_
      refine .intro located (fun inner member => ?_) ?_ fun inner member => ?_
      · simpa using within _ (child inner member)
      · refine siblings (depth, statement) ?_
        cases statement <;> simp [nodes]
      · have below : ∀ node ∈ inner.nodes (depth + 1), node.2.children.Pairwise Before := by
          refine fun node under => siblings node ?_
          cases statement with
          | label head body extent =>
              exact List.mem_cons_of_mem _ (mem_nodesOfAll.2 ⟨inner, member, under⟩)
          | _ => cases member
        exact ih _ (child inner member) below rfl

/-- What is below a statement in order is in order, and lies within it. -/
theorem of_mem_lineage (ordered : statement.Ordered lines) {node : List Statement × Statement}
    (member : node ∈ lineage around statement) :
    node.2.Ordered lines ∧ node.2.span.Within statement.span := by
  induction ordered generalizing around with
  | @intro statement located within inOrder each ih =>
      rw [lineage_eq] at member
      rcases List.mem_cons.1 member with rfl | below
      · exact ⟨.intro located within inOrder each, located.within_self⟩
      · obtain ⟨child, inside, found⟩ := mem_lineageOfAll.1 below
        obtain ⟨ordered, under⟩ := ih child inside found
        exact ⟨ordered, under.trans (within child inside)⟩

end Ordered

/-! ## The way down to a position -/

/-- Whether the statement of a node lies at a position. -/
def atPosition (position : Position) (node : List Statement × Statement) : Bool :=
  node.2.span.contains position

/-- Nodes that stand one directly inside the other, the first directly inside `around`. -/
inductive Chain : List Statement → List (List Statement × Statement) → Prop
  | nil {around : List Statement} : Chain around []
  | cons {around : List Statement} {statement : Statement}
      {nodes : List (List Statement × Statement)}
      (within : ∀ node ∈ nodes, node.2.span.Within statement.span)
      (rest : Chain (statement :: around) nodes) : Chain around ((around, statement) :: nodes)

namespace Chain

variable {nodes : List (List Statement × Statement)}

theorem pairwise (chain : Chain around nodes) :
    nodes.Pairwise fun outer inner => inner.2.span.Within outer.2.span := by
  induction chain with
  | nil => exact .nil
  | cons within _ ih => exact .cons within ih

/-- The labels around a node of a chain are the nodes in front of it. -/
theorem around_eq {before after : List (List Statement × Statement)}
    {node : List Statement × Statement} (chain : Chain around nodes)
    (split : nodes = before ++ node :: after) :
    node.1 = (before.map Prod.snd).reverse ++ around := by
  induction chain generalizing before with
  | nil => simp at split
  | cons within rest ih =>
      cases before with
      | nil =>
          obtain ⟨rfl, -⟩ := List.cons.inj split
          rfl
      | cons first before =>
          obtain ⟨rfl, rest⟩ := List.cons.inj split
          simpa using ih rest

end Chain

/-- The nodes at a position stand one inside the other, and the descent finds the last of them. -/
structure Descends (position : Position) (around : List Statement)
    (nodes : List (List Statement × Statement)) (found? : Option Statement) : Prop where
  chain : Chain around (nodes.filter (atPosition position))
  last : (nodes.filter (atPosition position)).getLast?.map Prod.snd = found?

variable (around) in
theorem Ordered.filter_lineage_of_not (ordered : statement.Ordered lines)
    (off : statement.span.contains position = false) :
    (lineage around statement).filter (atPosition position) = [] := by
  refine List.filter_eq_nil_iff.2 fun node member on => ?_
  rw [(ordered.of_mem_lineage member).2.contains on] at off
  cases off

variable (around) in
/-- No statement behind one at the position is at the position too. -/
theorem filter_lineageOfAll_of_before (each : ∀ later ∈ statements, later.Ordered lines)
    (before : ∀ later ∈ statements, statement.Before later)
    (on : statement.span.contains position = true) :
    (lineageOfAll around statements).filter (atPosition position) = [] := by
  refine List.filter_eq_nil_iff.2 fun node member here => ?_
  obtain ⟨later, behind, found⟩ := mem_lineageOfAll.1 member
  have on' := ((each later behind).of_mem_lineage found).2.contains here
  have apart := before later behind
  simp only [Span.contains, Bool.and_eq_true, decide_eq_true_eq, Before] at on on' apart
  omega

theorem descendsAll (each : ∀ statement ∈ statements, statement.Ordered lines)
    (inOrder : statements.Pairwise Before)
    (descend : ∀ statement ∈ statements,
      Descends position around (lineage around statement) (innermost? position statement)) :
    Descends position around (lineageOfAll around statements)
      (innermostOfAll? position statements) := by
  induction statements with
  | nil => exact ⟨.nil, rfl⟩
  | cons statement rest ih =>
      obtain ⟨ordered, each⟩ := List.forall_mem_cons.1 each
      obtain ⟨before, inOrder⟩ := List.pairwise_cons.1 inOrder
      obtain ⟨first, descend⟩ := List.forall_mem_cons.1 descend
      have equal := innermost?_eq position statement
      by_cases on : statement.span.contains position = true
      · -- Only the first statement can be at the position.
        rw [if_pos on] at equal
        have none_ := filter_lineageOfAll_of_before around each before on
        refine ⟨?_, ?_⟩ <;> rw [lineageOfAll, List.filter_append, none_, List.append_nil]
        · exact first.chain
        · rw [first.last, innermostOfAll?, equal]
      · rw [if_neg on] at equal
        have none_ := ordered.filter_lineage_of_not around (Bool.not_eq_true _ ▸ on)
        have later := ih each inOrder descend
        refine ⟨?_, ?_⟩ <;> rw [lineageOfAll, List.filter_append, none_, List.nil_append]
        · exact later.chain
        · rw [later.last, innermostOfAll?, equal]

theorem Ordered.descends (ordered : statement.Ordered lines) (around : List Statement) :
    Descends position around (lineage around statement) (innermost? position statement) := by
  induction ordered generalizing around with
  | @intro statement located within inOrder each ih =>
      rw [innermost?_eq]
      by_cases on : statement.span.contains position = true
      · have below : Descends position (statement :: around)
            (lineageOfAll (statement :: around) statement.children)
            (innermostOfAll? position statement.children) :=
          descendsAll each inOrder fun child member => ih child member (statement :: around)
        have here : atPosition position (around, statement) = true := on
        refine ⟨?_, ?_⟩ <;> rw [lineage_eq, List.filter_cons_of_pos here]
        · refine .cons (fun node member => ?_) below.chain
          obtain ⟨child, inside, found⟩ := mem_lineageOfAll.1 (List.mem_filter.1 member).1
          exact ((each child inside).of_mem_lineage found).2.trans (within child inside)
        · rw [if_pos on, ← below.last, List.getLast?_cons]
          cases ((lineageOfAll (statement :: around) statement.children).filter
            (atPosition position)).getLast? <;> rfl
      · have off := Bool.not_eq_true _ ▸ on
        have none_ :=
          (Ordered.intro located within inOrder each).filter_lineage_of_not around off
        refine ⟨?_, ?_⟩ <;> rw [none_]
        · exact .nil
        · rw [if_neg on]
          rfl

end Statement

/-! ## The scope that starts last -/

namespace ScopeTree

theorem foldl_later_mem (best? : Option (Scope × Nat)) (candidates : List (Scope × Nat)) :
    candidates.foldl later best? = best? ∨
      ∃ best ∈ candidates, candidates.foldl later best? = some best := by
  induction candidates generalizing best? with
  | nil => exact .inl rfl
  | cons candidate rest ih =>
      rcases ih (later best? candidate) with same | ⟨best, member, found⟩
      · rw [List.foldl_cons, same]
        unfold later
        split
        · split
          · exact .inl rfl
          · exact .inr ⟨candidate, List.mem_cons_self, rfl⟩
        · exact .inr ⟨candidate, List.mem_cons_self, rfl⟩
      · exact .inr ⟨best, List.mem_cons_of_mem _ member, found⟩

variable {tree : ScopeTree} {position : Position}

theorem scopeAt_eq (tree : ScopeTree) (position : Position) :
    tree.scopeAt position =
      (((tree.scopes.zipIdx.filter fun entry => entry.1.span.contains position).foldl later
        none).map Prod.snd).getD globalScope := by
  unfold scopeAt
  dsimp only
  cases (tree.scopes.zipIdx.filter fun entry => entry.1.span.contains position).foldl later
    none <;> rfl

theorem filter_zipIdx_of_none {scopes : List Scope}
    (off : ∀ scope ∈ scopes, scope.span.contains position = false) (start : Nat) :
    (scopes.zipIdx start).filter (fun entry => entry.1.span.contains position) = [] := by
  refine List.filter_eq_nil_iff.2 fun entry member => ?_
  simp [off entry.1 (List.fst_mem_of_mem_zipIdx member)]

theorem scopeAt_of_none (off : ∀ span ∈ tree.spans, span.contains position = false) :
    tree.scopeAt position = globalScope := by
  rw [scopeAt_eq, filter_zipIdx_of_none fun scope member =>
    off scope.span (List.mem_map_of_mem member)]
  rfl

theorem later_of_precedes {best? : Option (Scope × Nat)} {candidate : Scope × Nat}
    (first : ∀ best ∈ best?, best.1.span.start.precedes candidate.1.span.start = true) :
    later best? candidate = some candidate := by
  cases best? with
  | none => rfl
  | some best =>
      have early := first best rfl
      simp only [Position.precedes, bne_iff_ne, ne_eq] at early
      rw [later, if_neg early]

/-- Of the scopes at a position the last one is found, if none of the others starts behind it. -/
theorem scopeAt_of_last (before : List Span) {after : List Span} {span : Span}
    (split : tree.spans = before ++ span :: after) (on : span.contains position = true)
    (first : ∀ other ∈ before, other.contains position = true →
      other.start.precedes span.start = true)
    (last : ∀ other ∈ after, other.contains position = false) :
    tree.scopeAt position = before.length := by
  obtain ⟨outer, rest, scopes, rfl, equal⟩ := List.map_eq_append_iff.1 split
  obtain ⟨scope, inner, rfl, rfl, rfl⟩ := List.map_eq_cons_iff.1 equal
  simp only [List.forall_mem_map] at first last
  rw [scopeAt_eq, scopes, List.zipIdx_append, List.zipIdx_cons, List.filter_append,
    List.filter_cons, if_pos on, filter_zipIdx_of_none last, List.foldl_append, List.foldl_cons,
    List.foldl_nil, later_of_precedes fun best member => ?_]
  · simp
  · rcases foldl_later_mem none (outer.zipIdx.filter
      fun entry => entry.1.span.contains position) with same | ⟨best', among, found⟩
    · rw [same] at member
      cases member
    · rw [found] at member
      obtain rfl := Option.some.inj member
      obtain ⟨member, on'⟩ := List.mem_filter.1 among
      exact first best'.1 (List.fst_mem_of_mem_zipIdx member) on'

end ScopeTree

/-! ## Scopes of documents -/

namespace Document

open ScopeTree Statement

/-- A document whose statements are in order. -/
structure Ordered (lines : LineMap) (document : Document) : Prop where
  origin : document.span.start = lines.positionAt 0
  inOrder : document.statements.Pairwise Statement.Before
  each : ∀ statement ∈ document.statements, statement.Ordered lines

variable {lines : LineMap} {document : Document} {position : Position}

theorem ofText_ordered (source : List Char) :
    (ofText source).1.Ordered (LineMap.ofText source) := by
  have origin : Position.origin = (LineMap.ofText source).positionAt 0 :=
    (LineMap.positionAt_byteLength [] source).symm
  have along : (Cursor.ofTokens source (Token.ofText source)).Along (LineMap.ofText source) 0 :=
    ⟨(Token.ofText_inOrder source).filter _, origin, Nat.zero_le _⟩
  obtain ⟨stop, read⟩ := Grammar.blockWith_inOrder (Grammar.bodiesWithin_inOrder _) none along
  refine ⟨congrArg Span.start (ofText_span source), read.inOrder, fun statement member => ?_⟩
  have lies := read.lie statement member
  exact .of_nested lies.tree.nested (lies.siblings 0)

namespace Ordered

theorem descends (ordered : document.Ordered lines) (position : Position) :
    Descends position [] document.lineage (document.statementAt? position) :=
  descendsAll ordered.each ordered.inOrder fun statement member =>
    (ordered.each statement member).descends []

theorem located (ordered : document.Ordered lines) {node : List Statement × Statement}
    (member : node ∈ document.lineage) : node.2.span.Located lines := by
  obtain ⟨statement, child, found⟩ := mem_lineageOfAll.1 member
  exact ((ordered.each statement child).of_mem_lineage found).1.located

end Ordered

theorem labels_lineage (document : Document) :
    document.labels.map LabelPlace.statement =
      (document.lineage.map Prod.snd).filter isLabel := by
  rw [labels, labelsOfAll_statement globalScope 1 0, ← nodes, ← lineage_nodes, List.map_map]
  rfl

/-- The labels in preorder give the extents of the scopes behind the global one. -/
theorem scopeSpans_eq (document : Document) (builtins : List String) :
    (Resolution.findings document builtins).tree.spans =
      document.span :: ((document.lineage.map Prod.snd).filter isLabel).map Statement.span := by
  rw [Resolution.findings_spans, ← labels_lineage, List.map_map]
  rfl

variable {nodes : List (List Statement × Statement)}

/-- The statement is a label of the document, and this is the scope that it opens. -/
def OpenedBy (document : Document) (scopes : List Scope) (label : Statement) (scope : Nat) : Prop :=
  ∃ index place opened, document.labels[index]? = some place ∧ place.statement = label ∧
    scope = index + 1 ∧ scopes[scope]? = some opened ∧ place.Opens opened

/-- A label opens the scope that has the number of the labels in front, with the global scope. -/
theorem openedBy_of_lineage {before after : List (List Statement × Statement)}
    {node : List Statement × Statement} (lineage : document.lineage = before ++ node :: after)
    (isLabel : node.2.isLabel = true) (builtins : List String) :
    document.OpenedBy (Resolution.findings document builtins).tree.scopes node.2
      (((before.map Prod.snd).filter Statement.isLabel).length + 1) := by
  have labels : document.labels.map LabelPlace.statement =
      ((before.map Prod.snd).filter Statement.isLabel) ++
        node.2 :: (after.map Prod.snd).filter Statement.isLabel := by
    rw [labels_lineage, lineage, List.map_append, List.map_cons, List.filter_append,
      List.filter_cons_of_pos isLabel]
  obtain ⟨places, rest, split, places_, equal⟩ := List.map_eq_append_iff.1 labels
  obtain ⟨place, later, rfl, place_, -⟩ := List.map_eq_cons_iff.1 equal
  have at_ : document.labels[places.length]? = some place := by simp [split]
  obtain ⟨opened, found, opens⟩ := Resolution.findings_opens at_ builtins
  rw [← places_, List.length_map]
  exact ⟨places.length, place, opened, at_, place_, rfl, found, opens⟩

theorem forall_labelSpans {holds : Span → Prop} :
    (∀ span ∈ ((nodes.map Prod.snd).filter isLabel).map Statement.span, holds span) ↔
      ∀ node ∈ nodes, node.2.isLabel = true → holds node.2.span := by
  simp only [List.forall_mem_map, List.mem_filter, and_imp]

namespace Ordered

theorem start_precedes (ordered : document.Ordered lines) {inner : List Statement × Statement}
    (member : inner ∈ document.lineage) {outer : Span} (begins : Nat)
    (start : outer.start = lines.positionAt begins)
    (before : begins ≤ inner.2.span.start.offset) :
    outer.start.precedes inner.2.span.start = true := by
  rw [start, congrArg Span.start (ordered.located member).positions]
  exact LineMap.positionAt_precedes before

/-- The scope at a position that a label is at, if no label at the position stands behind it. -/
theorem scopeAt_label (ordered : document.Ordered lines) (builtins : List String)
    {outer inner : List (List Statement × Statement)} {node : List Statement × Statement}
    (split : document.lineage.filter (atPosition position) = outer ++ node :: inner)
    (isLabel : node.2.isLabel = true) (last : ∀ other ∈ inner, other.2.isLabel = false) :
    document.OpenedBy (Resolution.findings document builtins).tree.scopes node.2
      ((Resolution.findings document builtins).tree.scopeAt position) := by
  have chain := (ordered.descends position).chain.pairwise
  rw [split] at chain
  obtain ⟨before, after, lineage, outer_, on, inner_⟩ := exists_split_of_filter split
  have spans := document.scopeSpans_eq builtins
  rw [lineage, List.map_append, List.map_cons, List.filter_append,
    List.filter_cons_of_pos isLabel, List.map_append, List.map_cons] at spans
  have member : node ∈ document.lineage := by simp [lineage]
  have scope := scopeAt_of_last
    (document.span :: ((before.map Prod.snd).filter Statement.isLabel).map Statement.span)
    spans on ?_ ?_
  · rw [scope, List.length_cons, List.length_map]
    exact openedBy_of_lineage lineage isLabel builtins
  · refine List.forall_mem_cons.2 ⟨fun _ => ?_, forall_labelSpans.2 fun other among _ on => ?_⟩
    · exact ordered.start_precedes member 0 ordered.origin (Nat.zero_le _)
    · have around : other ∈ outer := outer_ ▸ List.mem_filter.2 ⟨among, on⟩
      have within := (List.pairwise_append.1 chain).2.2 other around node List.mem_cons_self
      have among_ : other ∈ document.lineage := by simp [lineage, among]
      have located := ordered.located among_
      refine ordered.start_precedes member _ (congrArg Span.start located.positions) ?_
      exact within.start_le
  · refine forall_labelSpans.2 fun other among label => Bool.not_eq_true _ ▸ fun here => ?_
    have plain := last other (inner_ ▸ List.mem_filter.2 ⟨among, here⟩)
    rw [label] at plain
    cases plain

end Ordered

/-- Where no label is, there is no scope but the global one. -/
theorem scopeAt_global (document : Document) (builtins : List String)
    (none_ : ∀ node ∈ document.lineage.filter (atPosition position), node.2.isLabel = false) :
    (Resolution.findings document builtins).tree.scopeAt position = globalScope := by
  have spans := document.scopeSpans_eq builtins
  have off : ∀ span ∈ ((document.lineage.map Prod.snd).filter isLabel).map Statement.span,
      span.contains position = false := by
    refine forall_labelSpans.2 fun node member label => Bool.not_eq_true _ ▸ fun here => ?_
    have plain := none_ node (List.mem_filter.2 ⟨member, here⟩)
    rw [label] at plain
    cases plain
  by_cases on : document.span.contains position = true
  · exact scopeAt_of_last [] spans on (by simp) off
  · rw [scopeAt_of_none]
    rw [spans]
    exact List.forall_mem_cons.2 ⟨Bool.not_eq_true _ ▸ on, off⟩

/-- A node of the document at a position, inside labels at the position only, that is deeper than
all other nodes at the position. -/
structure Deepest (document : Document) (position : Position)
    (node : List Statement × Statement) : Prop where
  on : node.2.span.contains position = true
  around : ∀ label ∈ node.1, label.span.contains position = true
  only : ∃ before after, document.lineage = before ++ node :: after ∧
    ∀ other ∈ before ++ after, other.2.span.contains position = true →
      other.1.length < node.1.length

/-- The innermost of the labels in front is the one whose scope the position lies in; without such a
label it is the global scope. -/
def ScopeWithin (document : Document) (scopes : List Scope) (scope : Nat)
    (path : List Statement) : Prop :=
  match path.find? isLabel with
  | some label => document.OpenedBy scopes label scope
  | none => scope = globalScope

namespace Ordered

theorem deepest (ordered : document.Ordered lines) {before : List (List Statement × Statement)}
    {node : List Statement × Statement}
    (split : document.lineage.filter (atPosition position) = before ++ [node]) :
    document.Deepest position node := by
  have chain := (ordered.descends position).chain
  have around := chain.around_eq split
  rw [List.append_nil] at around
  obtain ⟨front, behind, lineage, front_, on, behind_⟩ := exists_split_of_filter split
  refine ⟨on, ?_, front, behind, lineage, fun other member here => ?_⟩
  · rw [around]
    intro label member
    obtain ⟨outer, among, rfl⟩ := List.mem_map.1 (List.mem_reverse.1 member)
    rw [← front_] at among
    exact (List.mem_filter.1 among).2
  · rcases List.mem_append.1 member with early | late
    · have among : other ∈ before := front_ ▸ List.mem_filter.2 ⟨early, here⟩
      obtain ⟨outer, inner, rfl⟩ := List.append_of_mem among
      have split_ : document.lineage.filter (atPosition position) =
          outer ++ other :: (inner ++ [node]) := by simp [split]
      have outside := chain.around_eq split_
      simp only [around, outside, List.append_nil, List.length_reverse, List.length_map,
        List.length_append, List.length_cons]
      omega
    · have none_ : other ∈ behind.filter (atPosition position) := List.mem_filter.2 ⟨late, here⟩
      rw [behind_] at none_
      cases none_

theorem scopeWithin (ordered : document.Ordered lines) (builtins : List String)
    {before : List (List Statement × Statement)} {node : List Statement × Statement}
    (split : document.lineage.filter (atPosition position) = before ++ [node]) :
    document.ScopeWithin (Resolution.findings document builtins).tree.scopes
      ((Resolution.findings document builtins).tree.scopeAt position) (node.2 :: node.1) := by
  have path : node.2 :: node.1 =
      ((document.lineage.filter (atPosition position)).map Prod.snd).reverse := by
    rw [(ordered.descends position).chain.around_eq split, split]
    simp
  unfold ScopeWithin
  rw [path]
  split
  · next label found =>
      obtain ⟨isLabel, inner, outer, equal, plain⟩ := List.find?_eq_some_iff_append.1 found
      rw [List.reverse_eq_iff, List.reverse_append, List.reverse_cons, List.append_assoc,
        List.singleton_append] at equal
      obtain ⟨outside, rest, split, -, equal⟩ := List.map_eq_append_iff.1 equal
      obtain ⟨found, inside, rfl, rfl, inner_⟩ := List.map_eq_cons_iff.1 equal
      refine ordered.scopeAt_label builtins split isLabel fun other member => ?_
      have among : other.2 ∈ inner.reverse := inner_ ▸ List.mem_map_of_mem member
      simpa using plain other.2 (List.mem_reverse.1 among)
  · next none_ =>
      refine document.scopeAt_global builtins fun node member => ?_
      simpa using List.find?_eq_none.1 none_ node.2
        (List.mem_reverse.2 (List.mem_map_of_mem member))

end Ordered

end Document

/-- Wherever a statement is at a position, one is deepest, with all labels around it at the position
too.  That one is found, and the scope at the position is the one that the innermost label opens,
going out from it and itself included, or the global scope if there is no label. -/
theorem Analysis.ofText_innermost (source : List Char) (options : AnalysisOptions)
    (position : Position) :
    let analysis := Analysis.ofText source options
    let document := analysis.document
    let scope := analysis.symbols.scopeAt position
    (∃ node, document.Deepest position node ∧ document.statementAt? position = some node.2 ∧
      document.ScopeWithin analysis.symbols.scopes scope (node.2 :: node.1)) ∨
    ((∀ node ∈ document.lineage, node.2.span.contains position = false) ∧
      document.statementAt? position = none ∧ scope = ScopeTree.globalScope) := by
  intro analysis document scope
  have ordered : document.Ordered (.ofText source) := Document.ofText_ordered source
  have scopes : analysis.symbols.scopes =
      (Resolution.findings document options.builtins).tree.scopes :=
    Resolution.ofDocument_scopes document options.builtins options.reportUnresolved
  have same : scope = (Resolution.findings document options.builtins).tree.scopeAt position := by
    simp only [scope, ScopeTree.scopeAt, scopes]
  have last := (ordered.descends position).last
  rw [scopes, same, ← last]
  cases found : (document.lineage.filter (Statement.atPosition position)).getLast? with
  | some node =>
      obtain ⟨before, split⟩ := List.getLast?_eq_some_iff.1 found
      exact .inl ⟨node, ordered.deepest split, rfl, ordered.scopeWithin options.builtins split⟩
  | none =>
      have none_ := List.getLast?_eq_none_iff.1 found
      refine .inr ⟨fun node member => ?_, rfl, document.scopeAt_global options.builtins ?_⟩
      · exact Bool.not_eq_true _ ▸ List.filter_eq_nil_iff.1 none_ node member
      · simp [none_]

end NovelScript
