import Mathlib.Algebra.Ring.Nat
import NovelScript.Outline
import NovelScript.Proofs.NodeTexts

/-!
# Outlines line by line

An outline has a row for each node it shows, in preorder, behind two characters for each level
above.  A row is one line of the outline unless the label in it spans lines, as only strings,
subscripts and computed targets do: their labels repeat the script as it stands.
-/

namespace NovelScript

/-! ## Lines of a text -/

namespace Text

def newlines (text : String) : Nat := text.toList.count '\n'

theorem flat_iff_newlines {text : String} : Flat text ↔ newlines text = 0 :=
  List.count_eq_zero.symm

theorem newlines_append (first second : String) :
    newlines (first ++ second) = newlines first + newlines second := by
  simp [newlines]

theorem toList_unlines (lines : List String) :
    (unlines lines).toList = lines.flatMap fun line => line.toList ++ ['\n'] := by
  simp [unlines, List.flatMap_map]

theorem newlines_unlines (lines : List String) :
    newlines (unlines lines) = lines.length + (lines.map newlines).sum := by
  rw [newlines, toList_unlines]
  induction lines with
  | nil => rfl
  | cons line rest ih =>
      rw [List.flatMap_cons, List.count_append, List.count_append, ih]
      simp [newlines]
      omega

private theorem length_splitOn (text : List Char) :
    (text.splitOn '\n').length = text.count '\n' + 1 := by
  induction text with
  | nil => rfl
  | cons character rest ih =>
      rw [List.splitOn_cons_eq_if_modifyHead, List.count_cons]
      split
      · simp [ih]
      · simp [ih]

/-- Lines that were put together come apart again exactly if none of them spans lines itself. -/
theorem splitOn_unlines {lines : List String} :
    (unlines lines).toList.splitOn '\n' = lines.map String.toList ++ [[]] ↔
      ∀ line ∈ lines, Flat line := by
  constructor
  · intro same line member
    have count := length_splitOn (unlines lines).toList
    rw [same, show List.count _ _ = _ from newlines_unlines lines] at count
    simp only [List.length_append, List.length_map, List.length_singleton] at count
    have none : (lines.map newlines).sum = 0 := by omega
    exact flat_iff_newlines.2
      (List.sum_eq_zero_iff_forall_eq_nat.1 none _ (List.mem_map_of_mem member))
  · intro flat
    rw [toList_unlines]
    induction lines with
    | nil => simp
    | cons line rest ih =>
        rw [List.flatMap_cons, List.append_assoc, List.singleton_append,
          List.splitOn_append_cons_self_of_not_mem (flat line (by simp)),
          ih fun other member => flat other (by simp [member])]
        rfl

theorem Flat.truncate {text : String} (flat : Flat text) (limit : Nat) :
    Flat (Text.truncate limit text) := by
  unfold Text.truncate
  split
  · rw [flat_append]
    refine ⟨fun broken => flat ?_, by decide⟩
    rw [String.toList_ofList] at broken
    exact List.mem_of_mem_take broken
  · exact flat

theorem number_flat (number : Nat) : Flat (toString number) := by
  intro broken
  have digit := Nat.isDigit_of_mem_toDigits (b := 10) (n := number) (c := '\n') (by decide)
    (by decide) (by simpa using broken)
  exact absurd digit (by decide)

theorem padNumber_flat (width number : Nat) : Flat (padNumber width number) := by
  rw [padNumber, flat_append]
  exact ⟨by simp [Flat], number_flat number⟩

theorem Flat.intercalate {separator : String} (flat : Flat separator) {texts : List String}
    (each : ∀ text ∈ texts, Flat text) : Flat (separator.intercalate texts) := by
  induction texts with
  | nil => simp [Flat]
  | cons first rest ih =>
      have later := ih fun text member => each text (List.mem_cons_of_mem first member)
      cases rest with
      | nil =>
          rw [String.intercalate_singleton]
          exact each first (by simp)
      | cons second rest =>
          rw [String.intercalate_cons_cons, flat_append, flat_append]
          exact ⟨⟨each first (by simp), flat⟩, later⟩

private theorem toDigits_flat (number : Nat) : '\n' ∉ Nat.toDigits 16 number := by
  have digit : ∀ value < 16, '\n' ≠ Nat.digitChar value := by decide
  induction number using Nat.strongRecOn with
  | ind number ih =>
      by_cases small : number < 16
      · rw [Nat.toDigits_of_lt_base small, List.mem_singleton]
        exact digit number small
      · rw [Nat.toDigits_of_base_le (by decide) (Nat.not_lt.1 small), List.mem_append,
          List.mem_singleton]
        exact not_or.2 ⟨ih (number / 16) (by omega), digit _ (Nat.mod_lt _ (by decide))⟩

/-- Quoted text shows line ends by letters. -/
theorem quote_flat (text : String) : Flat (quote text) := by
  have escaped (character : Char) : '\n' ∉ escapeCharacter character := by
    unfold escapeCharacter
    split_ifs with _ _ _ newline _ _ hidden
    iterate 6 decide
    · simp [codePointEscape, toDigits_flat]
    · simpa [eq_comm] using newline
  simp [Flat, quote, escaped]

end Text

/-! ## What is shown -/

/-- What an outline has a row for. -/
inductive OutlineNode where
  | statement (statement : Statement)
  | parameter (parameter : Parameter)
  | expression (expression : Expression)

namespace OutlineNode

def icon : OutlineNode → String
  | .statement own => own.icon
  | .parameter own => own.icon
  | .expression own => own.icon

def label : OutlineNode → String
  | .statement own => own.displayLabel
  | .parameter own => own.name.name
  | .expression own => own.label

/-- The line that the node starts on, from zero. -/
def line : OutlineNode → Nat
  | .statement own => own.span.start.line
  | .parameter own => own.name.span.start.line
  | .expression own => own.span.start.line

/-- As much of the label as an outline shows. -/
def shownLabel (node : OutlineNode) : String := Text.truncate Outline.labelLimit node.label

/-- Whether the label repeats a piece of the script that may span lines: a string, the subscript of
a definition, or the computed target of a jump or a call. -/
def isVerbatim : OutlineNode → Bool
  | .statement (.define binding) => binding.index.isSome
  | .statement (.jump transfer) => transfer.expression.isSome
  | .statement (.call transfer) => transfer.expression.isSome
  | .expression (.literal value) => value.kind == .string
  | _ => false

end OutlineNode

/-- An expression and its parts in preorder, each with the number of nodes it stands inside. -/
def Expression.shown (depth : Nat) : Expression → List (Nat × OutlineNode)
  | .parenthesized inner span =>
      (depth, .expression (.parenthesized inner span)) :: inner.shown (depth + 1)
  | .assignment left operator right span =>
      (depth, .expression (.assignment left operator right span)) ::
        (left.shown (depth + 1) ++ right.shown (depth + 1))
  | expression => [(depth, .expression expression)]

def Parameter.shown (depth : Nat) (parameter : Parameter) : List (Nat × OutlineNode) :=
  (depth, .parameter parameter) :: parameter.default.toList.flatMap (Expression.shown (depth + 1))

namespace Statement

/-- The expressions below a statement, the priority and the subscript of a binding among them. -/
def shownExpressions : Statement → List Expression
  | .define binding =>
      .literal binding.priority :: (binding.index.toList.map .python ++
        binding.assignment.toList.map Assignment.toExpression)
  | .defaultValue binding =>
      .literal binding.priority :: binding.assignment.toList.map Assignment.toExpression
  | .jump transfer => transfer.expression.toList.map .python
  | .call transfer => transfer.arguments ++ transfer.expression.toList.map .python
  | .return value _ => value.toList
  | .pause duration _ => duration.toList
  | .label .. | .pass _ | .python .. => []

mutual

def shown (depth : Nat) : Statement → List (Nat × OutlineNode)
  | .label head body span =>
      (depth, .statement (.label head body span)) ::
        (head.parameters.flatMap (Parameter.shown (depth + 1)) ++ shownOfAll (depth + 1) body)
  | statement =>
      (depth, .statement statement) ::
        statement.shownExpressions.flatMap (Expression.shown (depth + 1))

def shownOfAll (depth : Nat) : List Statement → List (Nat × OutlineNode)
  | [] => []
  | statement :: rest => statement.shown depth ++ shownOfAll depth rest

end

end Statement

/-- The nodes that an outline of the document has rows for. -/
def Document.shown (document : Document) : List (Nat × OutlineNode) :=
  Statement.shownOfAll 0 document.statements

/-! ## Rows -/

namespace Outline

/-- The branches in front of a node: a bar for each level above that goes on behind the node, and
blanks for one that does not. -/
inductive Stem : Nat → String → Prop
  | root : Stem 0 ""
  | bar {depth : Nat} {stem : String} (above : Stem depth stem) :
      Stem (depth + 1) (stem ++ "│ ")
  | blank {depth : Nat} {stem : String} (above : Stem depth stem) :
      Stem (depth + 1) (stem ++ "  ")

theorem Stem.length {depth : Nat} {stem : String} (branches : Stem depth stem) :
    stem.length = 2 * depth := by
  induction branches with
  | root => rfl
  | bar above ih | blank above ih =>
      rw [String.length_append, ih, Nat.mul_succ]
      rfl

/-- The row of a node: its line from one if asked for, two characters for each level above, a
connector, the icon and the label. -/
def Row (lineNumbers : Bool) (node : Nat × OutlineNode) (row : String) : Prop :=
  ∃ stem connector, Stem node.1 stem ∧ stem.length = 2 * node.1 ∧
    (connector = "├─ " ∨ connector = "└─ ") ∧
    row = (if lineNumbers then Text.padNumber 2 (node.2.line + 1) ++ " " else "") ++ stem ++
      connector ++ (node.2.icon ++ " " ++ node.2.shownLabel)

/-- An outline whose rows are those of given nodes, whatever is drawn in front. -/
def Draws (depth : Nat) (nodes : List (Nat × OutlineNode)) (outline : Outline) : Prop :=
  ∀ lineNumbers stem isLast, Stem depth stem →
    List.Forall₂ (Row lineNumbers) nodes (outline.lines lineNumbers stem isLast)

inductive DrawsAll (depth : Nat) : List (Nat × OutlineNode) → List Outline → Prop
  | nil : DrawsAll depth [] []
  | cons {first rest : List (Nat × OutlineNode)} {outline : Outline} {outlines : List Outline}
      (one : Draws depth first outline) (more : DrawsAll depth rest outlines) :
      DrawsAll depth (first ++ rest) (outline :: outlines)

variable {depth : Nat} {nodes : List (Nat × OutlineNode)}

namespace DrawsAll

theorem rows {outlines : List Outline} (all : DrawsAll depth nodes outlines) (lineNumbers : Bool)
    {stem : String} (above : Stem depth stem) :
    List.Forall₂ (Row lineNumbers) nodes (linesOfAll lineNumbers stem outlines) := by
  induction all with
  | nil => rw [linesOfAll]; exact .nil
  | cons one more ih =>
      rw [linesOfAll]
      exact List.rel_append (one _ _ _ above) ih

theorem append {first second : List (Nat × OutlineNode)} {before behind : List Outline}
    (one : DrawsAll depth first before) (two : DrawsAll depth second behind) :
    DrawsAll depth (first ++ second) (before ++ behind) := by
  induction one with
  | nil => exact two
  | cons here later ih =>
      rw [List.append_assoc]
      exact .cons here ih

theorem map {items : List α} {shown : α → List (Nat × OutlineNode)} {toOutline : α → Outline}
    (each : ∀ item, Draws depth (shown item) (toOutline item)) :
    DrawsAll depth (items.flatMap shown) (items.map toOutline) := by
  induction items with
  | nil => exact nil
  | cons item rest ih => exact cons (each item) ih

end DrawsAll

theorem Draws.node (node : OutlineNode) {children : List Outline}
    (inside : DrawsAll (depth + 1) nodes children) :
    Draws depth ((depth, node) :: nodes) (.node node.icon node.label node.line children) := by
  intro lineNumbers stem isLast above
  rw [lines]
  refine .cons ⟨stem, if isLast then "└─ " else "├─ ", above, above.length, ?_, rfl⟩
    (inside.rows _ ?_)
  · cases isLast <;> simp
  · cases isLast
    · exact .bar above
    · exact .blank above

/-! ## Outlines of syntax trees -/

theorem ofExpression_draws (depth : Nat) (expression : Expression) :
    Draws depth (expression.shown depth) (ofExpression expression) := by
  induction expression generalizing depth with
  | literal value => exact .node (.expression (.literal value)) .nil
  | reference name => exact .node (.expression (.reference name)) .nil
  | python code => exact .node (.expression (.python code)) .nil
  | parenthesized inner span ih =>
      rw [Expression.shown, ← List.append_nil (inner.shown _)]
      exact .node (.expression (.parenthesized inner span)) (.cons (ih _) .nil)
  | assignment left operator right span one two =>
      rw [Expression.shown, ← List.append_nil (right.shown _)]
      exact .node (.expression (.assignment left operator right span))
        (.cons (one _) (.cons (two _) .nil))

theorem ofOption_draws (depth : Nat) (value : Option Expression) :
    DrawsAll depth (value.toList.flatMap (Expression.shown depth)) (ofOption value) :=
  .map (ofExpression_draws depth)

theorem ofParameter_draws (depth : Nat) (parameter : Parameter) :
    Draws depth (parameter.shown depth) (ofParameter parameter) :=
  .node (.parameter parameter) (ofOption_draws _ _)

/-- The nodes below a statement other than a label are its expressions. -/
theorem ofStatement_of_plain {statement : Statement} (plain : statement.isLabel = false) :
    ofStatement statement = .node statement.icon statement.displayLabel statement.span.start.line
      (statement.shownExpressions.map ofExpression) := by
  cases statement with
  | label => cases plain
  | _ =>
      simp [ofStatement, Statement.shownExpressions, ofPython, ofAssignment, ofOption,
        Function.comp_def]

theorem shown_of_plain {statement : Statement} (plain : statement.isLabel = false) (depth : Nat) :
    statement.shown depth = (depth, .statement statement) ::
      statement.shownExpressions.flatMap (Expression.shown (depth + 1)) := by
  cases statement with
  | label => cases plain
  | _ => rw [Statement.shown]; simp

mutual

theorem ofStatement_draws (depth : Nat) (statement : Statement) :
    Draws depth (statement.shown depth) (ofStatement statement) := by
  cases statement with
  | label head body span =>
      rw [ofStatement, Statement.shown]
      exact .node (.statement (.label head body span))
        (.append (.map (ofParameter_draws _)) (ofStatements_draws _ body))
  | _ =>
      rw [ofStatement_of_plain rfl, shown_of_plain rfl]
      exact .node (.statement _) (.map (ofExpression_draws _))

theorem ofStatements_draws (depth : Nat) (statements : List Statement) :
    DrawsAll depth (Statement.shownOfAll depth statements) (ofStatements statements) := by
  cases statements with
  | nil =>
      rw [Statement.shownOfAll, ofStatements]
      exact .nil
  | cons statement rest =>
      rw [Statement.shownOfAll, ofStatements]
      exact .cons (ofStatement_draws depth statement) (ofStatements_draws depth rest)

end

/-! ## Rows and lines -/

open Text

theorem Stem.flat {stem : String} (branches : Stem depth stem) : Flat stem := by
  induction branches with
  | root => decide
  | bar above ih | blank above ih => exact flat_append.2 ⟨ih, by decide⟩

end Outline

theorem OutlineNode.icon_flat (node : OutlineNode) : Text.Flat node.icon := by
  cases node with
  | statement own => cases own <;> dsimp only [icon, Statement.icon] <;> decide
  | parameter own => exact (by decide : Text.Flat "•")
  | expression own => cases own <;> dsimp only [icon, Expression.icon] <;> decide

namespace Outline

open Text

/-- A row spans lines only as the label in it does. -/
theorem Row.newlines_eq {lineNumbers : Bool} {node : Nat × OutlineNode} {row : String}
    (drawn : Row lineNumbers node row) : newlines row = newlines node.2.shownLabel := by
  obtain ⟨stem, connector, above, -, drawn, rfl⟩ := drawn
  have number : Flat (if lineNumbers then padNumber 2 (node.2.line + 1) ++ " " else "") := by
    split
    · exact flat_append.2 ⟨padNumber_flat _ _, by decide⟩
    · decide
  have connects : Flat connector := by rcases drawn with rfl | rfl <;> decide
  have front : Flat ((if lineNumbers then padNumber 2 (node.2.line + 1) ++ " " else "") ++ stem ++
      connector) := flat_append.2 ⟨flat_append.2 ⟨number, above.flat⟩, connects⟩
  have icon : Flat (node.2.icon ++ " ") := flat_append.2 ⟨node.2.icon_flat, by decide⟩
  rw [newlines_append _ (_ ++ _ ++ _), flat_iff_newlines.1 front, newlines_append (_ ++ _),
    flat_iff_newlines.1 icon, Nat.zero_add, Nat.zero_add]

end Outline

/-! ## Labels that stay on their line -/

open Text

/-- A node whose label stays on its line unless it repeats the script. -/
def OutlineNode.Tame (node : OutlineNode) : Prop := node.isVerbatim = false → Flat node.label

theorem Operator.text_flat (operator : Operator) : Flat operator.text := by
  cases operator <;> decide

theorem LiteralKind.text_flat (sort : LiteralKind) : Flat sort.text := by
  cases sort <;> decide

theorem Expression.Flat.shown {expression : Expression} (flat : expression.Flat) (depth : Nat) :
    ∀ node ∈ expression.shown depth, node.2.Tame := by
  induction flat generalizing depth with
  | @literal value flat =>
      simp only [Expression.shown, List.mem_singleton, forall_eq]
      intro plain
      have number : value.kind ≠ .string := by simpa [OutlineNode.isVerbatim] using plain
      have label : OutlineNode.label (.expression (.literal value)) =
        value.kind.text ++ " " ++ value.text := rfl
      rw [label, flat_append, flat_append]
      exact ⟨⟨value.kind.text_flat, by decide⟩, flat number⟩
  | reference flat =>
      simp only [Expression.shown, List.mem_singleton, forall_eq]
      exact fun _ => flat
  | parenthesized flat ih =>
      simp only [Expression.shown, List.forall_mem_cons]
      exact ⟨fun _ => (by decide : Text.Flat "( )"), ih _⟩
  | @assignment left right operator span _ _ one two =>
      simp only [Expression.shown, List.forall_mem_cons, List.forall_mem_append]
      exact ⟨fun _ => operator.text_flat, one _, two _⟩
  | @python code =>
      simp only [Expression.shown, List.mem_singleton, forall_eq]
      exact fun _ => quote_flat code.source

theorem Parameter.Flat.shown {parameter : Parameter} (flat : parameter.Flat) (depth : Nat) :
    ∀ node ∈ parameter.shown depth, node.2.Tame := by
  simp only [Parameter.shown, List.forall_mem_cons, List.mem_flatMap, Option.mem_toList]
  refine ⟨fun _ => flat.1, ?_⟩
  rintro node ⟨value, default, inside⟩
  exact (flat.2 value default).shown _ node inside

theorem targetLabel_flat {target : Option Identifier} (flat : ∀ name ∈ target, name.Flat) :
    Flat (targetLabel target) := by
  cases target with
  | none => exact (by decide : Flat "<missing>")
  | some name => exact flat name rfl

theorem Assignment.Flat.target {assignment : Assignment} (flat : assignment.Flat) :
    ∀ target ∈ assignment.target?, Text.Flat target.name := by
  obtain ⟨left, operator, right, span⟩ := assignment
  cases flat with
  | assignment lefts rights =>
      cases lefts with
      | reference named =>
          rintro _ ⟨⟩
          exact named
      | literal | parenthesized | assignment | python => rintro _ ⟨⟩

theorem bindingLabel_flat {priority : Literal} {assignment : Option Assignment}
    (number : Flat priority.text) (flat : ∀ one ∈ assignment, one.Flat) :
    Flat (bindingLabel priority assignment none) := by
  have behind {front : String} (flat : Flat front) : Flat (front ++ priority.text ++ ")") :=
    flat_append.2 ⟨flat_append.2 ⟨flat, number⟩, by decide⟩
  simp only [bindingLabel]
  split
  · next target equal =>
    obtain ⟨one, assigned, aimed⟩ := Option.bind_eq_some_iff.1 equal
    have named := (flat one assigned).target target aimed
    exact behind (flat_append.2 ⟨flat_append.2 ⟨named, by decide⟩, by decide⟩)
  · exact behind (by decide : Flat "<incomplete> (priority ")

theorem LabelHead.Flat.label {head : LabelHead} (flat : head.Flat) : Text.Flat head.label := by
  unfold LabelHead.label
  split
  · exact targetLabel_flat flat.name
  · have names : Text.Flat (", ".intercalate (head.parameters.map (·.name.name))) := by
      refine .intercalate (by decide) fun name member => ?_
      obtain ⟨parameter, among, rfl⟩ := List.mem_map.1 member
      exact (flat.parameters parameter among).1
    have opens := flat_append.2 ⟨targetLabel_flat flat.name, (by decide : Text.Flat "(")⟩
    exact flat_append.2 ⟨flat_append.2 ⟨opens, names⟩, by decide⟩

theorem Call.Flat.label {call : Call} (flat : call.Flat) (plain : call.expression = none) :
    Text.Flat call.label := by
  have callee : Text.Flat call.callee := by
    rw [Call.callee, plain]
    cases screen : call.screen with
    | none => exact targetLabel_flat flat.target
    | some name => exact flat_append.2 ⟨by decide, flat.screen name screen⟩
  unfold Call.label
  split
  · next site equal =>
    exact flat_append.2 ⟨flat_append.2 ⟨callee, by decide⟩, flat.returnSite site equal⟩
  · exact callee

namespace Statement.Flat

variable {statement : Statement}

theorem label (flat : statement.Flat) : (OutlineNode.statement statement).Tame := by
  intro plain
  show Text.Flat statement.displayLabel
  cases statement with
  | define binding =>
      have none : binding.index = none := by simpa [OutlineNode.isVerbatim] using plain
      rw [displayLabel, Define.label, none]
      exact bindingLabel_flat flat.1 flat.2
  | defaultValue binding => exact bindingLabel_flat flat.1 flat.2
  | label head body span => exact LabelHead.Flat.label flat
  | jump transfer =>
      have none : transfer.expression = none := by simpa [OutlineNode.isVerbatim] using plain
      rw [displayLabel, Jump.label, none]
      exact targetLabel_flat flat
  | call transfer =>
      have none : transfer.expression = none := by simpa [OutlineNode.isVerbatim] using plain
      exact Call.Flat.label flat none
  | «return» | pass | pause => exact (by decide : Text.Flat "")
  | python code =>
      cases code with
      | none => exact (by decide : Text.Flat "")
      | some code => exact quote_flat code.source

theorem shownExpressions (flat : statement.Flat) :
    ∀ one ∈ statement.shownExpressions, one.Flat := by
  have codes {code : Option PythonCode} : ∀ one ∈ code.toList.map Expression.python, one.Flat := by
    simp only [List.forall_mem_map]
    exact fun _ _ => .python
  have assigned {assignment : Option Assignment} (flat : ∀ one ∈ assignment, one.Flat) :
      ∀ one ∈ assignment.toList.map Assignment.toExpression, one.Flat := by
    simp only [List.forall_mem_map, Option.mem_toList]
    exact flat
  have priority {value : Literal} (flat : Text.Flat value.text) : (Expression.literal value).Flat :=
    .literal fun _ => flat
  cases statement with
  | define binding =>
      exact List.forall_mem_cons.2
        ⟨priority flat.1, List.forall_mem_append.2 ⟨codes, assigned flat.2⟩⟩
  | defaultValue binding => exact List.forall_mem_cons.2 ⟨priority flat.1, assigned flat.2⟩
  | jump transfer => exact codes
  | call transfer => exact List.forall_mem_append.2 ⟨Call.Flat.arguments flat, codes⟩
  | «return» value | pause value =>
      simp only [Statement.shownExpressions, Option.mem_toList]
      exact flat
  | label | pass | python => simp [Statement.shownExpressions]

end Statement.Flat

namespace Statement

mutual

theorem shown_tame (depth : Nat) (around : List Statement) (statement : Statement)
    (flat : ∀ node ∈ lineage around statement, node.2.Flat) :
    ∀ node ∈ statement.shown depth, node.2.Tame := by
  have own : statement.Flat := flat (around, statement) (by cases statement <;> simp [lineage])
  cases statement with
  | label head body span =>
      rw [lineage, List.forall_mem_cons] at flat
      rw [shown, List.forall_mem_cons, List.forall_mem_append]
      refine ⟨own.label, ?_, shownOfAll_tame _ _ body flat.2⟩
      simp only [List.mem_flatMap]
      rintro node ⟨parameter, among, inside⟩
      exact (LabelHead.Flat.parameters own parameter among).shown _ node inside
  | _ =>
      rw [Outline.shown_of_plain rfl, List.forall_mem_cons]
      refine ⟨own.label, ?_⟩
      simp only [List.mem_flatMap]
      rintro node ⟨expression, among, inside⟩
      exact (own.shownExpressions expression among).shown _ node inside

theorem shownOfAll_tame (depth : Nat) (around : List Statement) (statements : List Statement)
    (flat : ∀ node ∈ lineageOfAll around statements, node.2.Flat) :
    ∀ node ∈ shownOfAll depth statements, node.2.Tame := by
  cases statements with
  | nil => simp [shownOfAll]
  | cons statement rest =>
      rw [lineageOfAll, List.forall_mem_append] at flat
      rw [shownOfAll, List.forall_mem_append]
      exact ⟨shown_tame depth around statement flat.1, shownOfAll_tame depth around rest flat.2⟩

end

end Statement

namespace Document

def heading (document : Document) : String := document.icon ++ " " ++ document.label

theorem heading_flat (document : Document) : Flat document.heading := by
  have label : Flat document.label := flat_append.2 ⟨number_flat _, by decide⟩
  exact flat_append.2 ⟨(by decide : Flat "⧉ "), label⟩

/-- An outline has the heading and then a row for each node shown, in preorder, and as many lines
more as there are newlines in the labels. -/
theorem outline_rows (document : Document) (lineNumbers : Bool) :
    ∃ rows : List String,
      List.Forall₂ (Outline.Row lineNumbers) document.shown rows ∧
      document.outline lineNumbers = unlines (document.heading :: rows) ∧
      rows.map newlines = document.shown.map fun node => newlines node.2.shownLabel := by
  have drawn := (Outline.ofStatements_draws 0 document.statements).rows lineNumbers .root
  have same : Relator.LiftFun (Outline.Row lineNumbers) Eq
      (fun node => newlines node.2.shownLabel) newlines := fun _ _ row => row.newlines_eq.symm
  have counts := List.rel_map same drawn
  rw [List.forall₂_eq_eq_eq] at counts
  exact ⟨_, drawn, rfl, counts.symm⟩

/-- Whatever a script is, its outline has the heading and then a row for each node shown, in
preorder.  It has as many lines as rows, and further ones for the newlines in the labels; so each
row is a line exactly if no string, subscript or computed target shows a newline. -/
theorem ofText_outline (source : List Char) (lineNumbers : Bool) :
    ∃ rows : List String,
      List.Forall₂ (Outline.Row lineNumbers) (ofText source).1.shown rows ∧
      (ofText source).1.outline lineNumbers = unlines ((ofText source).1.heading :: rows) ∧
      newlines ((ofText source).1.outline lineNumbers) =
        1 + (ofText source).1.shown.length +
          ((ofText source).1.shown.map fun node => newlines node.2.shownLabel).sum ∧
      (((ofText source).1.outline lineNumbers).toList.splitOn '\n' =
          ((ofText source).1.heading :: rows).map String.toList ++ [[]] ↔
        ∀ node ∈ (ofText source).1.shown, node.2.isVerbatim = true → Flat node.2.shownLabel) := by
  obtain ⟨rows, drawn, outline, labels⟩ := outline_rows (ofText source).1 lineNumbers
  refine ⟨rows, drawn, outline, ?_, ?_⟩
  · rw [outline, newlines_unlines, List.length_cons, List.map_cons, List.sum_cons,
      flat_iff_newlines.1 (heading_flat _), labels, drawn.length_eq]
    omega
  have tame : ∀ node ∈ (ofText source).1.shown, node.2.Tame :=
    Statement.shownOfAll_tame 0 [] _ fun node member => ofText_flat member
  have flat : (∀ row ∈ rows, Flat row) ↔
      ∀ node ∈ (ofText source).1.shown, Flat node.2.shownLabel := by
    have zero := congrArg (∀ count ∈ ·, count = 0) labels
    simpa only [List.forall_mem_map, flat_iff_newlines, eq_iff_iff] using zero
  rw [outline, splitOn_unlines, List.forall_mem_cons, and_iff_right (heading_flat _), flat]
  refine forall₂_congr fun node member => ⟨fun label _ => label, fun label => ?_⟩
  cases verbatim : node.2.isVerbatim with
  | true => exact label verbatim
  | false => exact (tame node member verbatim).truncate _

private def brokenSource : List Char := "return 'a\nb'\n".toList

/-- A string shows its newline, so that two nodes take three lines. -/
theorem brokenSource_outline :
    (ofText brokenSource).1.outline false = "⧉ 1 statements\n└─ ↩ \n  └─ ◦ string 'a\nb'\n" ∧
      (ofText brokenSource).1.shown.length = 2 ∧
      newlines ((ofText brokenSource).1.outline false) = 4 := by
  decide +kernel

end Document

end NovelScript
