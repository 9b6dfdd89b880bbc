import Mathlib.Data.List.Forall2
import NovelScript.Proofs.LabelPlaces
import NovelScript.Proofs.Resolutions
import NovelScript.Proofs.ScopeChains

/-!
# Scopes of labels

The scopes of a resolved document are its labels over again: one for each, in preorder behind the
global scope, inside one another as the labels are, and with just those names that the labels bind.
The walk opens them on its way and knows no numbers but those of the scopes that are still open.
-/

namespace NovelScript

/-! ## Scopes that a walk opens -/

namespace ScopeTree

/-- The extent of the scope that a call opens. -/
def Call.span? : Call → Option Span
  | .openScope _ span => some span
  | .bind .. | .claimBuiltin .. | .addReference .. => none

/-- Calls lead from one tree to the other and open scopes of these extents. -/
def Grows (opened : List Span) (before after : ScopeTree) : Prop :=
  ∃ calls : List Call, calls.foldl apply before = after ∧ calls.filterMap Call.span? = opened

namespace Grows

variable {first second third : ScopeTree} {opened further : List Span}

theorem nil (tree : ScopeTree) : Grows [] tree tree := ⟨[], rfl, rfl⟩

theorem call (tree : ScopeTree) (call : Call) : Grows call.span?.toList tree (tree.apply call) :=
  ⟨[call], rfl, by cases span : call.span? <;> simp [span]⟩

theorem append (one : Grows opened first second) (two : Grows further second third) :
    Grows (opened ++ further) first third := by
  obtain ⟨calls, rfl, rfl⟩ := one
  obtain ⟨others, rfl, rfl⟩ := two
  exact ⟨calls ++ others, List.foldl_append, List.filterMap_append⟩

end Grows

end ScopeTree

/-- The extent of the label that a walk enters. -/
def Encounter.opened : Encounter → List Span
  | .enterLabel _ span => [span]
  | _ => []

namespace Findings

open ScopeTree

theorem define_grows (findings : Findings) (scope : Nat) (name : String) (kind : SymbolKind)
    (span : Span) : Grows [] findings.tree (findings.define scope name kind span).tree := by
  have bound : Grows [] findings.tree (findings.tree.bind scope name kind (some span)).2 :=
    .call _ (.bind scope name kind (some span))
  unfold define
  generalize findings.tree.bind scope name kind (some span) = binding at bound
  obtain ⟨_ | symbol, tree⟩ := binding
  · exact bound
  · have claimed : Grows [] tree (tree.claimBuiltin symbol span).2 :=
      .call _ (.claimBuiltin symbol span)
    dsimp only
    generalize tree.claimBuiltin symbol span = claim at claimed
    obtain ⟨_ | _, tree'⟩ := claim <;> exact bound.append claimed

theorem defineAll_grows (findings : Findings) (definitions : List Definition) :
    Grows [] findings.tree (definitions.foldl defineSlot findings).tree := by
  induction definitions generalizing findings with
  | nil => exact .nil findings.tree
  | cons definition rest ih =>
      have one : Grows [] findings.tree (findings.defineSlot definition).tree :=
        findings.define_grows ..
      exact one.append (ih (findings.defineSlot definition))

theorem enterLabel_grows (findings : Findings) (head : LabelHead) (span : Span) :
    Grows [span] findings.tree (findings.enterLabel head span).tree := by
  rw [enterLabel_defines]
  have names := findings.defineAll_grows (head.nameDefinitions findings.scope)
  generalize (head.nameDefinitions findings.scope).foldl defineSlot findings = named at names
  have opened : Grows [span] named.tree (named.opened findings.scope span).tree :=
    .call _ (.openScope findings.scope span)
  exact (names.append opened).append (defineAll_grows ..)

theorem noteTarget_tree (findings : Findings) (target : Option Identifier) :
    (findings.noteTarget target).tree = findings.tree := by
  cases target <;> rfl

/-- The step of the walk: only labels open scopes. -/
theorem meet_grows (findings : Findings) (encounter : Encounter) :
    Grows encounter.opened findings.tree (findings.meet encounter).tree := by
  have target (assignment : Option Assignment) :
      Grows [] findings.tree (findings.defineTarget assignment).tree := by
    unfold defineTarget
    cases assignment.bind Assignment.target? with
    | none => exact .nil findings.tree
    | some target => exact findings.define_grows ..
  cases encounter with
  | define binding => exact target binding.assignment
  | defaultValue value => exact target value.assignment
  | enterLabel head span => exact findings.enterLabel_grows head span
  | leaveLabel _ => exact .nil findings.tree
  | jump transfer => exact findings.noteTarget_tree transfer.target ▸ .nil findings.tree
  | call transfer => exact findings.noteTarget_tree transfer.target ▸ .nil findings.tree
  | expression _ => exact .nil findings.tree
  | reference _ => exact .nil findings.tree

/-- The run of the walk. -/
theorem meetAll_grows (findings : Findings) (encounters : List Encounter) :
    Grows (encounters.flatMap Encounter.opened) findings.tree
      (findings.meetAll encounters).tree := by
  induction encounters generalizing findings with
  | nil => exact .nil findings.tree
  | cons encounter rest ih => exact (findings.meet_grows encounter).append (ih _)

end Findings

theorem Expression.walk_opened (expression : Expression) :
    expression.walk.flatMap Encounter.opened = [] := by
  induction expression with
  | literal _ => rfl
  | reference _ => rfl
  | parenthesized _ _ ih => exact ih
  | assignment _ _ _ _ _ ih => exact ih
  | python _ => rfl

theorem Expression.walkOption_opened (expression : Option Expression) :
    (walkOption expression).flatMap Encounter.opened = [] := by
  cases expression with
  | none => rfl
  | some expression => exact expression.walk_opened

theorem Assignment.walkOption_opened (assignment : Option Assignment) :
    (walkOption assignment).flatMap Encounter.opened = [] := by
  cases assignment with
  | none => rfl
  | some assignment => exact assignment.right.walk_opened

namespace Statement

mutual

/-- The walk enters the labels in preorder. -/
theorem walk_opened (outer next : Nat) : ∀ statement : Statement,
    statement.walk.flatMap Encounter.opened =
      (statement.labels outer next).map LabelPlace.span
  | .define binding => Assignment.walkOption_opened binding.assignment
  | .defaultValue value => Assignment.walkOption_opened value.assignment
  | .label head body span => by
      have defaults : (head.parameters.flatMap fun parameter =>
          (Expression.walkOption parameter.default).flatMap Encounter.opened) = [] := by
        simp [Expression.walkOption_opened]
      rw [walk, List.flatMap_append, List.flatMap_assoc, defaults, List.flatMap_cons,
        List.flatMap_append, walkAll_opened next (next + 1) body]
      simp [labels, Encounter.opened]
  | .call transfer => by
      simp [walk, labels, Encounter.opened, List.flatMap_assoc, Expression.walk_opened]
  | .return value _ => Expression.walkOption_opened value
  | .pause duration _ => Expression.walkOption_opened duration
  | .jump _ | .pass _ | .python .. => rfl

theorem walkAll_opened (outer next : Nat) : ∀ statements : List Statement,
    (walkAll statements).flatMap Encounter.opened =
      (labelsOfAll outer next statements).map LabelPlace.span
  | [] => rfl
  | statement :: rest => by
      rw [walkAll, List.flatMap_append, walk_opened outer next, walkAll_opened outer,
        labelsOfAll, List.map_append]

end

end Statement

namespace Resolution

open ScopeTree

theorem initialTree_grows (span : Span) (builtins : List String) :
    Grows [] (.ofSpan span) (initialTree span builtins) := by
  refine ⟨builtins.map fun name => .bind globalScope name .«variable» none, ?_, ?_⟩
  · rw [List.foldl_map]
    rfl
  · simp [Call.span?]

/-- From the first builtin to the end of the walk, the tree grows by the scopes of the labels. -/
theorem findings_grows (document : Document) (builtins : List String) :
    Grows (document.labels.map LabelPlace.span) (.ofSpan document.span)
      (findings document builtins).tree := by
  have initial := initialTree_grows document.span builtins
  have walked := Findings.meetAll_grows { tree := initialTree document.span builtins } document.walk
  rw [Document.walk, Statement.walkAll_opened globalScope 1] at walked
  exact initial.append walked

end Resolution

/-! ## Names of scopes -/

namespace Scope

def names (scope : Scope) (kind : SymbolKind) : List String := (scope.bindings kind).map Prod.fst

/-- The names of a scope are these, each of them once. -/
def Holds (scope : Scope) (kind : SymbolKind) (names : List String) : Prop :=
  (scope.names kind).Nodup ∧ ∀ name, name ∈ scope.names kind ↔ name ∈ names

theorem mem_names_iff {scope : Scope} {name : String} {kind : SymbolKind} :
    name ∈ scope.names kind ↔ (scope.get? name kind).isSome = true := by
  rw [get?, List.lookup_isSome_iff, names, List.mem_map]
  simp only [beq_iff_eq, @eq_comm _ name]

theorem names_insert (scope : Scope) (name : String) (kind other : SymbolKind) (symbol : Nat) :
    (scope.insert name kind symbol).names other =
      scope.names other ++ if other.isFunction = kind.isFunction then [name] else [] := by
  unfold names bindings insert
  cases kind.isFunction <;> cases other.isFunction <;> simp

end Scope

namespace ScopeTree

variable {tree : ScopeTree}

/-- A tree in which no scope has a name twice. -/
def Distinct (tree : ScopeTree) : Prop :=
  ∀ scope ∈ tree.scopes, ∀ kind, (scope.names kind).Nodup

theorem Distinct.extend (distinct : tree.Distinct) {symbol : Symbol}
    (free : tree.at? symbol.slot = none) : (tree.extend symbol).Distinct := by
  intro scope member kind
  obtain ⟨index, found⟩ := List.mem_iff_getElem?.1 member
  rw [ScopeTree.extend, List.getElem?_modify] at found
  obtain ⟨old, there, rfl⟩ := Option.map_eq_some_iff.1 found
  have before := distinct old (List.mem_of_getElem? there) kind
  split
  · next here =>
      rw [Scope.names_insert]
      split
      · next same =>
          have missing : symbol.name ∉ old.names kind := by
            rw [Scope.mem_names_iff, Scope.get?, Scope.bindings, same]
            have lookup := free
            rw [at?, Symbol.slot, here, there, Option.bind_some] at lookup
            rw [lookup]
            simp
          refine List.nodup_append.2 ⟨before, by simp, fun name member other again equal => ?_⟩
          rw [equal, List.mem_singleton.1 again] at member
          exact missing member
      · simpa using before
  · exact before

/-- The step of a call: it opens at most one scope, and gives no scope a name again. -/
theorem Distinct.apply (distinct : tree.Distinct) (call : Call) : (tree.apply call).Distinct := by
  cases call with
  | openScope parent span =>
      intro scope member kind
      rcases List.mem_append.1 member with old | new
      · exact distinct scope old kind
      · rw [List.mem_singleton.1 new]
        cases kind <;> exact .nil
  | bind scope name kind definition =>
      rcases tree.bind_cases scope name kind definition with
        ⟨-, equal⟩ | ⟨index, -, equal⟩ | ⟨-, free, equal⟩
      · simpa [ScopeTree.apply, equal] using distinct
      · simpa [ScopeTree.apply, equal] using distinct
      · rw [ScopeTree.apply, equal]
        exact distinct.extend free
  | claimBuiltin symbol definition =>
      rcases tree.claimBuiltin_cases symbol definition with ⟨-, -, -, equal⟩ | ⟨-, equal⟩ <;>
        rw [ScopeTree.apply, equal] <;> exact distinct
  | addReference symbol span => exact distinct

def spans (tree : ScopeTree) : List Span := tree.scopes.map Scope.span

theorem spans_apply (tree : ScopeTree) (call : Call) :
    (tree.apply call).spans = tree.spans ++ call.span?.toList := by
  cases call with
  | openScope parent span => simp [apply, openScope, spans, Call.span?]
  | bind scope name kind definition =>
      rcases tree.bind_cases scope name kind definition with
        ⟨-, equal⟩ | ⟨index, -, equal⟩ | ⟨-, -, equal⟩
      · simp [apply, equal, Call.span?]
      · simp [apply, equal, Call.span?]
      · simp [apply, equal, Call.span?, spans, map_extend Scope.insert_span]
  | claimBuiltin symbol definition =>
      rcases tree.claimBuiltin_cases symbol definition with ⟨-, -, -, equal⟩ | ⟨-, equal⟩ <;>
        simp [apply, equal, amend, spans, Call.span?]
  | addReference symbol span => simp [apply, addReference, spans, Call.span?]

namespace Grows

variable {first second : ScopeTree} {opened : List Span}

theorem distinct (grows : Grows opened first second) (start : first.Distinct) :
    second.Distinct := by
  obtain ⟨calls, rfl, -⟩ := grows
  induction calls generalizing first with
  | nil => exact start
  | cons call rest ih => exact ih (start.apply call)

theorem spans (grows : Grows opened first second) : second.spans = first.spans ++ opened := by
  obtain ⟨calls, rfl, rfl⟩ := grows
  induction calls generalizing first with
  | nil => simp
  | cons call rest ih =>
      rw [List.foldl_cons, ih, spans_apply, List.append_assoc]
      cases span : call.span? <;> simp [span]

end Grows

end ScopeTree

namespace Resolution

open ScopeTree

variable (document : Document) (builtins : List String)

theorem findings_spans : (findings document builtins).tree.spans =
    document.span :: document.labels.map LabelPlace.span :=
  (findings_grows document builtins).spans

theorem findings_distinct : (findings document builtins).tree.Distinct := by
  refine (findings_grows document builtins).distinct fun scope member kind => ?_
  rw [List.mem_singleton.1 member]
  cases kind <;> exact .nil

variable {document builtins} {scope : Scope}

/-- The names of a scope are those defined in it, and in the global one those of the builtins. -/
theorem findings_names {index : Nat}
    (found : (findings document builtins).tree.scopes[index]? = some scope) (name : String)
    (kind : SymbolKind) :
    name ∈ scope.names kind ↔
      (∃ definition ∈ document.definitions, definition.slot = ⟨index, name, kind.isFunction⟩) ∨
      (⟨index, name, kind.isFunction⟩ : Slot).isBuiltin builtins = true := by
  have here : scope.get? name kind =
      (findings document builtins).tree.at? ⟨index, name, kind.isFunction⟩ := by
    rw [← get?_eq, get?, found, Option.bind_some]
  rw [Scope.mem_names_iff, here, (findings_records document builtins).isSome_at?]

theorem findings_global
    (found : (findings document builtins).tree.scopes[globalScope]? = some scope) :
    scope.Holds .«variable» (builtins ++ Statement.targetsOfAll document.statements) ∧
      scope.Holds .function (document.statements.filterMap Statement.labelName?) := by
  have distinct := findings_distinct document builtins scope (List.mem_of_getElem? found)
  refine ⟨⟨distinct _, fun name => ?_⟩, ⟨distinct _, fun name => ?_⟩⟩
  · rw [findings_names found, Document.exists_definition_iff, Slot.isBuiltin_iff,
      List.mem_append]
    simp [Slot.globalVariable, LabelPlace.slots, SymbolKind.isFunction, globalScope, or_comm]
  · rw [findings_names found, Document.exists_definition_iff, Slot.isBuiltin_iff]
    simp [Slot.globalVariable, LabelPlace.slots, SymbolKind.isFunction, globalScope]

theorem findings_label {index : Nat} {label : LabelPlace}
    (at_ : document.labels[index]? = some label)
    (found : (findings document builtins).tree.scopes[index + 1]? = some scope) :
    scope.Holds .«variable» label.parameterNames ∧
      scope.Holds .function (label.body.filterMap Statement.labelName?) := by
  have distinct := findings_distinct document builtins scope (List.mem_of_getElem? found)
  refine ⟨⟨distinct _, fun name => ?_⟩, ⟨distinct _, fun name => ?_⟩⟩
  · rw [findings_names found, Document.exists_definition_label_iff at_ rfl, Slot.isBuiltin_iff]
    simp [LabelPlace.slots, SymbolKind.isFunction, globalScope]
  · rw [findings_names found, Document.exists_definition_label_iff at_ rfl, Slot.isBuiltin_iff]
    simp [LabelPlace.slots, SymbolKind.isFunction, globalScope]

end Resolution

/-- A scope is that of a label: it extends as far, is inside the scope of the label around, and has
the parameters as variables and the labels of the body as functions. -/
structure LabelPlace.Opens (label : LabelPlace) (scope : Scope) : Prop where
  span : scope.span = label.span
  parent : scope.parent = some label.outer
  parameters : scope.Holds .«variable» label.parameterNames
  nested : scope.Holds .function (label.body.filterMap Statement.labelName?)

namespace Resolution

/-- Each label opens a scope, whose number is one more than the place of the label. -/
theorem findings_opens {document : Document} {index : Nat} {label : LabelPlace}
    (at_ : document.labels[index]? = some label) (builtins : List String) :
    ∃ scope, (findings document builtins).tree.scopes[index + 1]? = some scope ∧
      label.Opens scope := by
  have spans := findings_spans document builtins
  have parents := findings_parents document builtins
  rw [Document.outerScopes, ← Statement.labelsOfAll_outer, ← Document.labels] at parents
  have extent := congrArg (·[index + 1]?) spans
  have outer := congrArg (·[index + 1]?) parents
  simp only [ScopeTree.spans, ScopeTree.parents, List.getElem?_cons_succ, List.getElem?_map, at_,
    Option.map_some, Option.map_eq_some_iff] at extent outer
  obtain ⟨scope, found, span⟩ := extent
  obtain ⟨scope', found', parent⟩ := outer
  obtain rfl := Option.some.inj (found.symm.trans found')
  obtain ⟨parameters, nested⟩ := findings_label at_ found
  exact ⟨scope, found, span, parent, parameters, nested⟩

/-- The scopes behind the global one are those of the labels in preorder, each inside the scope of
the label that has it in its body. -/
theorem ofDocument_mirrors_labels (document : Document) (builtins : List String)
    (reportUnresolved : Bool) :
    (∃ global inner,
      (ofDocument document builtins reportUnresolved).tree.scopes = global :: inner ∧
      global.span = document.span ∧ global.parent = none ∧
      global.Holds .«variable» (builtins ++ Statement.targetsOfAll document.statements) ∧
      global.Holds .function (document.statements.filterMap Statement.labelName?) ∧
      List.Forall₂ LabelPlace.Opens document.labels inner) ∧
    document.labels.map LabelPlace.statement =
      (document.nodes.map Prod.snd).filter Statement.isLabel ∧
    ∀ (index : Nat) (label : LabelPlace), document.labels[index]? = some label →
      label.statement ∈ document.statementsIn label.outer ∧ label.outer ≤ index ∧
        index < label.outer +
          Statement.labelCountOfAll (document.statementsIn label.outer) := by
  refine ⟨?_, Statement.labelsOfAll_statement ScopeTree.globalScope 1 0 document.statements,
    fun index label => Document.labels_nested⟩
  rw [ofDocument_scopes]
  have spans := findings_spans document builtins
  have parents := findings_parents document builtins
  have top := @findings_global document builtins
  have opens (index : Nat) (here : index < document.labels.length) :=
    findings_opens (List.getElem?_eq_getElem here) builtins
  rw [ScopeTree.spans] at spans
  rw [ScopeTree.parents] at parents
  generalize (findings document builtins).tree.scopes = scopes at spans parents top opens
  obtain ⟨global, inner, rfl, extent, extents⟩ := List.map_eq_cons_iff.1 spans
  obtain ⟨outermost, -⟩ := List.cons.inj parents
  obtain ⟨targets, outermostLabels⟩ := top rfl
  refine ⟨global, inner, rfl, extent, outermost, targets, outermostLabels, ?_⟩
  have count : document.labels.length = inner.length := by
    simpa using (congrArg List.length extents).symm
  refine List.forall₂_iff_get.2 ⟨count, fun index here there => ?_⟩
  obtain ⟨scope, found, opened⟩ := opens index here
  obtain ⟨_, rfl⟩ := List.getElem?_eq_some_iff.1 (List.getElem?_cons_succ.symm.trans found)
  exact opened

end Resolution

end NovelScript
