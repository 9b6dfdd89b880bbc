import NovelScript.Proofs.Records

/-!
# Labels of a document

The labels of a document are numbered in preorder, from one on, as the scopes that they open will
be.  Each stands directly in another or in the document, and each definition of the document fills a
slot in the global scope or in that of one label.
-/

namespace NovelScript

/-! ## Labels by number -/

/-- A label with the number of the label directly around it.  Labels are numbered from one on, and
zero stands for the document. -/
structure LabelPlace where
  head : LabelHead
  body : List Statement
  span : Span
  outer : Nat
  deriving Repr

namespace LabelPlace

def statement (label : LabelPlace) : Statement := .label label.head label.body label.span

def parameterNames (label : LabelPlace) : List String :=
  label.head.parameters.map (·.name.name)

end LabelPlace

namespace Statement

mutual

/-- The labels in a statement in preorder, numbered from `next` on. -/
def labels (outer next : Nat) : Statement → List LabelPlace
  | .label head body span => ⟨head, body, span, outer⟩ :: labelsOfAll next (next + 1) body
  | _ => []

def labelsOfAll (outer next : Nat) : List Statement → List LabelPlace
  | [] => []
  | statement :: rest =>
      statement.labels outer next ++ labelsOfAll outer (next + statement.labelCount) rest

end

/-- The name of a label, if the statement is one and has a name. -/
def labelName? : Statement → Option String
  | .label head _ _ => head.name.map Identifier.name
  | _ => none

mutual

/-- The names that a statement defines for the whole document, wherever in it they stand. -/
def targets : Statement → List String
  | .define binding => (binding.assignment.bind Assignment.target?).toList.map Reference.name
  | .defaultValue value => (value.assignment.bind Assignment.target?).toList.map Reference.name
  | .label _ body _ => targetsOfAll body
  | _ => []

def targetsOfAll : List Statement → List String
  | [] => []
  | statement :: rest => statement.targets ++ targetsOfAll rest

end

end Statement

namespace Document

def labels (document : Document) : List LabelPlace :=
  Statement.labelsOfAll ScopeTree.globalScope 1 document.statements

/-- The statements directly in the label of a number, or for zero directly in the document. -/
def statementsIn (document : Document) : Nat → List Statement
  | 0 => document.statements
  | index + 1 => ((document.labels[index]?).map LabelPlace.body).getD []

end Document

namespace Statement

mutual

theorem labels_outer (outer next : Nat) : ∀ statement : Statement,
    (statement.labels outer next).map LabelPlace.outer = statement.outerScopes outer next
  | .label _ body _ => congrArg (outer :: ·) (labelsOfAll_outer next (next + 1) body)
  | .define _ | .defaultValue _ | .jump _ | .call _ | .return .. | .pass _ | .pause ..
  | .python .. => rfl

theorem labelsOfAll_outer (outer next : Nat) : ∀ statements : List Statement,
    (labelsOfAll outer next statements).map LabelPlace.outer =
      outerScopesOfAll outer next statements
  | [] => rfl
  | statement :: rest => by
      rw [labelsOfAll, List.map_append, labels_outer, labelsOfAll_outer, outerScopesOfAll]

end

theorem labels_length (outer next : Nat) (statement : Statement) :
    (statement.labels outer next).length = statement.labelCount := by
  rw [← outerScopes_length outer next, ← labels_outer, List.length_map]

theorem labelsOfAll_length (outer next : Nat) (statements : List Statement) :
    (labelsOfAll outer next statements).length = labelCountOfAll statements := by
  rw [← outerScopesOfAll_length outer next, ← labelsOfAll_outer, List.length_map]

mutual

/-- The labels come in the order of all nodes. -/
theorem labels_statement (outer next depth : Nat) : ∀ statement : Statement,
    (statement.labels outer next).map LabelPlace.statement =
      ((statement.nodes depth).map Prod.snd).filter isLabel
  | .label head body span =>
      congrArg (Statement.label head body span :: ·)
        (labelsOfAll_statement next (next + 1) (depth + 1) body)
  | .define _ | .defaultValue _ | .jump _ | .call _ | .return .. | .pass _ | .pause ..
  | .python .. => rfl

theorem labelsOfAll_statement (outer next depth : Nat) : ∀ statements : List Statement,
    (labelsOfAll outer next statements).map LabelPlace.statement =
      ((nodesOfAll depth statements).map Prod.snd).filter isLabel
  | [] => rfl
  | statement :: rest => by
      rw [labelsOfAll, nodesOfAll, List.map_append, List.map_append, List.filter_append,
        labels_statement outer next depth, labelsOfAll_statement outer _ depth]

end

/-- Where the label at a place of the list stands: directly in these statements, or directly in a
label from the list that is still open at that place. -/
def Nested (outer next : Nat) (statements : List Statement) (labels : List LabelPlace)
    (index : Nat) (label : LabelPlace) : Prop :=
  (label.outer = outer ∧ label.statement ∈ statements) ∨
    ∃ (place : Nat) (around : LabelPlace), labels[place]? = some around ∧
      label.outer = next + place ∧ label.statement ∈ around.body ∧
      place < index ∧ index ≤ place + labelCountOfAll around.body

mutual

theorem labels_nested {outer next index : Nat} {label : LabelPlace} : ∀ {statement : Statement},
    (statement.labels outer next)[index]? = some label →
    Nested outer next [statement] (statement.labels outer next) index label
  | .label head body span, found => by
      cases index with
      | zero =>
          obtain rfl := Option.some.inj found
          exact .inl ⟨rfl, List.mem_singleton.2 rfl⟩
      | succ index =>
          have inner : (labelsOfAll next (next + 1) body)[index]? = some label := found
          rcases labelsOfAll_nested inner with
            ⟨outside, member⟩ | ⟨place, around, at_, outside, member, before, within⟩
          · obtain ⟨bounded, -⟩ := List.getElem?_eq_some_iff.1 inner
            rw [labelsOfAll_length] at bounded
            exact .inr ⟨0, _, rfl, outside, member, Nat.succ_pos index, by simp only; omega⟩
          · exact .inr ⟨place + 1, around, at_, by omega, member, by omega, by omega⟩
  | .define _, found | .defaultValue _, found | .jump _, found | .call _, found
  | .return .., found | .pass _, found | .pause .., found | .python .., found => by
      cases found

theorem labelsOfAll_nested {outer next index : Nat} {label : LabelPlace} :
    ∀ {statements : List Statement}, (labelsOfAll outer next statements)[index]? = some label →
    Nested outer next statements (labelsOfAll outer next statements) index label
  | [], found => by cases found
  | statement :: rest, found => by
      have count := labels_length outer next statement
      by_cases first : index < (statement.labels outer next).length
      · have here : (statement.labels outer next)[index]? = some label := by
          rwa [labelsOfAll, List.getElem?_append_left first] at found
        rcases labels_nested here with
          ⟨outside, member⟩ | ⟨place, around, at_, outside, member, before, within⟩
        · exact .inl ⟨outside, by simp [List.mem_singleton.1 member]⟩
        · refine .inr ⟨place, around, ?_, outside, member, before, within⟩
          rw [labelsOfAll, List.getElem?_append_left (by omega), at_]
      · have later : (labelsOfAll outer (next + statement.labelCount) rest)[index -
            statement.labelCount]? = some label := by
          rwa [labelsOfAll, List.getElem?_append_right (by omega), count] at found
        rcases labelsOfAll_nested later with
          ⟨outside, member⟩ | ⟨place, around, at_, outside, member, before, within⟩
        · exact .inl ⟨outside, List.mem_cons_of_mem _ member⟩
        · refine .inr ⟨statement.labelCount + place, around, ?_, by omega, member, by omega,
            by omega⟩
          rw [labelsOfAll, List.getElem?_append_right (by omega), count, Nat.add_sub_cancel_left,
            at_]

end

end Statement

namespace Document

/-- A label is among the statements directly in the label around it, and comes before that label is
over. -/
theorem labels_nested {document : Document} {index : Nat} {label : LabelPlace}
    (found : document.labels[index]? = some label) :
    label.statement ∈ document.statementsIn label.outer ∧ label.outer ≤ index ∧
      index < label.outer + Statement.labelCountOfAll (document.statementsIn label.outer) := by
  rcases Statement.labelsOfAll_nested found with
    ⟨outside, member⟩ | ⟨place, around, at_, outside, member, before, within⟩
  · obtain ⟨bounded, -⟩ := List.getElem?_eq_some_iff.1 found
    rw [labels, Statement.labelsOfAll_length] at bounded
    rw [outside]
    exact ⟨member, Nat.zero_le index, (Nat.zero_add _).symm ▸ bounded⟩
  · have inside : document.statementsIn label.outer = around.body := by
      rw [outside, Nat.add_comm, statementsIn, labels, at_]
      rfl
    rw [inside, outside]
    exact ⟨member, by omega, by omega⟩

end Document

/-! ## Slots of a document -/

/-- The slots that a label fills in its own scope: its parameters and the labels in its body. -/
def LabelPlace.slots (label : LabelPlace) (scope : Nat) : List Slot :=
  label.parameterNames.map (⟨scope, ·, false⟩) ++
    (label.body.filterMap Statement.labelName?).map (⟨scope, ·, true⟩)

theorem LabelPlace.slots_scope {label : LabelPlace} {scope : Nat} {slot : Slot}
    (member : slot ∈ label.slots scope) : slot.scope = scope := by
  rcases List.mem_append.1 member with parameter | name
  · obtain ⟨_, -, rfl⟩ := List.mem_map.1 parameter
    rfl
  · obtain ⟨_, -, rfl⟩ := List.mem_map.1 name
    rfl

namespace Statement

/-- The slots of all labels from a list, which are numbered from `next` on. -/
def slotsOfLabels (next : Nat) (labels : List LabelPlace) : List Slot :=
  (labels.zipIdx next).flatMap fun place => place.1.slots place.2

theorem slotsOfLabels_append (next : Nat) (first second : List LabelPlace) :
    slotsOfLabels next (first ++ second) =
      slotsOfLabels next first ++ slotsOfLabels (next + first.length) second := by
  rw [slotsOfLabels, List.zipIdx_append, List.flatMap_append]
  rfl

theorem assignment_slots (assignment : Option Assignment) :
    (Assignment.definitions assignment).map Definition.slot =
      ((assignment.bind Assignment.target?).toList.map Reference.name).map
        Slot.globalVariable := by
  unfold Assignment.definitions
  cases assignment.bind Assignment.target? <;> rfl

mutual

/-- Every definition fills a slot of the document's, of the scope around the statement, or of a
label's. -/
theorem definitions_slots (outer next : Nat) : ∀ statement : Statement,
    ((statement.definitions outer next).map Definition.slot).Perm
      (statement.targets.map Slot.globalVariable ++
        statement.labelName?.toList.map (⟨outer, ·, true⟩) ++
        slotsOfLabels next (statement.labels outer next))
  | .define binding => by
      simp [definitions, assignment_slots, targets, labelName?, labels, slotsOfLabels]
  | .defaultValue value => by
      simp [definitions, assignment_slots, targets, labelName?, labels, slotsOfLabels]
  | .label head body span => by
      have inner := definitionsOfAll_slots next (next + 1) body
      have name : (head.nameDefinitions outer).map Definition.slot =
          (labelName? (.label head body span)).toList.map (⟨outer, ·, true⟩) := by
        simp only [LabelHead.nameDefinitions, labelName?]
        cases head.name <;> rfl
      have parameters : (head.parameterDefinitions next).map Definition.slot =
          (head.parameters.map (·.name.name)).map (⟨next, ·, false⟩) := by
        simp [LabelHead.parameterDefinitions, Definition.slot, SymbolKind.isFunction]
      rw [definitions, List.map_append, List.map_append, name, parameters]
      refine List.perm_iff_count.2 fun slot => ?_
      have count := List.perm_iff_count.1 inner slot
      simp only [slotsOfLabels, targets, labels, LabelPlace.slots, LabelPlace.parameterNames,
        List.zipIdx_cons, List.flatMap_cons, List.count_append] at count ⊢
      omega
  | .jump _ | .call _ | .return .. | .pass _ | .pause .. | .python .. => .nil

theorem definitionsOfAll_slots (outer next : Nat) : ∀ statements : List Statement,
    ((definitionsOfAll outer next statements).map Definition.slot).Perm
      ((targetsOfAll statements).map Slot.globalVariable ++
        (statements.filterMap labelName?).map (⟨outer, ·, true⟩) ++
        slotsOfLabels next (labelsOfAll outer next statements))
  | [] => .nil
  | statement :: rest => by
      have one := definitions_slots outer next statement
      have two := definitionsOfAll_slots outer (next + statement.labelCount) rest
      have names : ((statement :: rest).filterMap labelName?) =
          statement.labelName?.toList ++ rest.filterMap labelName? := by
        cases name : statement.labelName? <;> simp [name]
      rw [names, labelsOfAll, slotsOfLabels_append, labels_length]
      refine List.perm_iff_count.2 fun slot => ?_
      have first := List.perm_iff_count.1 one slot
      have later := List.perm_iff_count.1 two slot
      simp only [definitionsOfAll, targetsOfAll, List.map_append, List.count_append]
        at first later ⊢
      omega

end

end Statement

namespace Document

variable {document : Document}

/-- The names that a document binds in a scope: in the global one those that it defines and its
labels, in that of a label the parameters and the labels in the body. -/
theorem exists_definition_iff {slot : Slot} :
    (∃ definition ∈ document.definitions, definition.slot = slot) ↔
      (∃ name ∈ Statement.targetsOfAll document.statements, .globalVariable name = slot) ∨
      (∃ name ∈ document.statements.filterMap Statement.labelName?,
        ⟨ScopeTree.globalScope, name, true⟩ = slot) ∨
      ∃ (index : Nat) (label : LabelPlace), document.labels[index]? = some label ∧
        slot ∈ label.slots (index + 1) := by
  have perm := Statement.definitionsOfAll_slots ScopeTree.globalScope 1 document.statements
  have inLabels : slot ∈ Statement.slotsOfLabels 1 document.labels ↔
      ∃ (index : Nat) (label : LabelPlace), document.labels[index]? = some label ∧
        slot ∈ label.slots (index + 1) := by
    simp only [Statement.slotsOfLabels, List.mem_flatMap, Prod.exists,
      List.mk_mem_zipIdx_iff_le_and_getElem?_sub]
    constructor
    · rintro ⟨label, scope, ⟨inner, found⟩, member⟩
      obtain ⟨index, rfl⟩ := Nat.exists_eq_add_of_le' inner
      exact ⟨index, label, found, member⟩
    · rintro ⟨index, label, found, member⟩
      exact ⟨label, index + 1, ⟨by omega, found⟩, member⟩
  rw [← List.mem_map, definitions, perm.mem_iff, ← inLabels, List.mem_append, List.mem_append,
    List.mem_map, List.mem_map, or_assoc]
  rfl

/-- In the scope of a label, only the label itself binds names. -/
theorem exists_definition_label_iff {index : Nat} {label : LabelPlace}
    (found : document.labels[index]? = some label) {slot : Slot} (here : slot.scope = index + 1) :
    (∃ definition ∈ document.definitions, definition.slot = slot) ↔
      slot ∈ label.slots (index + 1) := by
  rw [exists_definition_iff]
  constructor
  · rintro (⟨name, -, rfl⟩ | ⟨name, -, rfl⟩ | ⟨other, around, at_, member⟩)
    · cases here
    · cases here
    · obtain rfl : index = other := Nat.succ.inj (here.symm.trans (LabelPlace.slots_scope member))
      obtain rfl := Option.some.inj (found.symm.trans at_)
      exact member
  · exact fun member => .inr (.inr ⟨index, label, found, member⟩)

end Document

end NovelScript
