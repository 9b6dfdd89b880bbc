import NovelScript.Proofs.Mentions

/-!
# Records of a walk

However a walk got to where it is, each slot holds the first of the definitions met there, or a
builtin if there was none, and every later definition of the slot has been reported.
-/

namespace NovelScript

def Slot.globalVariable (name : String) : Slot := ⟨ScopeTree.globalScope, name, false⟩

/-- Whether a slot is bound from the start, as the global variable of a builtin. -/
def Slot.isBuiltin (builtins : List String) (slot : Slot) : Bool :=
  builtins.any fun name => slot == .globalVariable name

/-- The definition of the symbol in a slot, absent for a builtin, if the slot has a symbol. -/
def Slot.standing (builtins : List String) (definitions : List Definition) (slot : Slot) :
    Option (Option Span) :=
  match definitions.find? (·.slot == slot) with
  | some first => some (some first.span)
  | none => if slot.isBuiltin builtins then some none else none

theorem Slot.standing_concat (builtins : List String) (definitions : List Definition)
    (last : Definition) (slot : Slot) :
    slot.standing builtins (definitions ++ [last]) =
      if slot = last.slot ∧ (definitions.find? (·.slot == slot)) = none then some (some last.span)
      else slot.standing builtins definitions := by
  unfold standing
  rw [List.find?_append]
  cases definitions.find? (·.slot == slot) with
  | some first => simp
  | none =>
      by_cases same : slot = last.slot
      · simp [same]
      · simp [same, Ne.symm same]

theorem Slot.isSome_standing (builtins : List String) (definitions : List Definition)
    (slot : Slot) : (slot.standing builtins definitions).isSome = true ↔
      (∃ definition ∈ definitions, definition.slot = slot) ∨ slot.isBuiltin builtins = true := by
  have defined : (definitions.find? (·.slot == slot)).isSome = true ↔
      ∃ definition ∈ definitions, definition.slot = slot := by simp
  rw [← defined, standing]
  cases definitions.find? (·.slot == slot) with
  | some first => simp
  | none => cases slot.isBuiltin builtins <;> simp

theorem Slot.isBuiltin_iff {builtins : List String} {slot : Slot} :
    slot.isBuiltin builtins = true ↔
      slot.scope = ScopeTree.globalScope ∧ slot.isFunction = false ∧ slot.name ∈ builtins := by
  obtain ⟨scope, name, isFunction⟩ := slot
  simp only [isBuiltin, globalVariable, List.any_eq_true, beq_iff_eq, Slot.mk.injEq]
  constructor
  · rintro ⟨name, member, rfl, rfl, rfl⟩
    exact ⟨rfl, rfl, member⟩
  · rintro ⟨rfl, rfl, member⟩
    exact ⟨name, member, rfl, rfl, rfl⟩

namespace Findings

/-! ## One definition -/

def defineSlot (findings : Findings) (definition : Definition) : Findings :=
  findings.define definition.scope definition.name definition.kind definition.span

/-- A definition fills its slot, takes a builtin over, or is one too many. -/
theorem defineSlot_cases {findings : Findings} (consistent : findings.tree.Consistent)
    {definition : Definition} (inside : definition.scope < findings.tree.scopes.length) :
    (findings.tree.at? definition.slot = none ∧
      findings.defineSlot definition =
        { findings with tree := findings.tree.extend definition.symbol }) ∨
    (∃ index symbol, findings.tree.at? definition.slot = some index ∧
      findings.tree.symbolAt definition.slot = some symbol ∧ symbol.definition = none ∧
      findings.defineSlot definition =
        { findings with
          tree := findings.tree.amend index ({ · with definition := some definition.span }) }) ∨
    (∃ symbol first, findings.tree.symbolAt definition.slot = some symbol ∧
      symbol.definition = some first ∧
      findings.defineSlot definition =
        { findings with
          errors := findings.errors ++
            [.duplicateSymbol definition.name definition.kind definition.span first] }) := by
  unfold defineSlot define
  rcases findings.tree.bind_cases definition.scope definition.name definition.kind
    (some definition.span) with ⟨outside, -⟩ | ⟨index, found, bound⟩ | ⟨-, free, bound⟩
  · omega
  · obtain ⟨symbol, at_, -⟩ := consistent.symbol found
    have here : findings.tree.symbolAt definition.slot = some symbol := by
      unfold ScopeTree.symbolAt
      rw [show findings.tree.at? definition.slot = some index from found, Option.bind_some, at_]
    simp only [bound]
    rcases findings.tree.claimBuiltin_cases index definition.span with
      ⟨other, again, builtin, claimed⟩ | ⟨defined, claimed⟩
    · obtain rfl : symbol = other := Option.some.inj (at_.symm.trans again)
      exact .inr (.inl ⟨index, symbol, found, here, builtin, by simp only [claimed]⟩)
    · obtain ⟨first, equal⟩ := Option.ne_none_iff_exists'.1 (defined symbol at_)
      refine .inr (.inr ⟨symbol, first, here, equal, ?_⟩)
      simp only [claimed, at_, Option.bind_some, equal, Option.getD_some]
  · exact .inl ⟨free, by simp only [bound, Definition.symbol]⟩

/-- A definition opens no scope and leaves none. -/
theorem defineSlot_frame (findings : Findings) (definition : Definition) :
    (findings.defineSlot definition).around = findings.around ∧
      (findings.defineSlot definition).tree.parents = findings.tree.parents := by
  have amended (index : Nat) (change : Symbol → Symbol) :
      (findings.tree.amend index change).parents = findings.tree.parents := rfl
  unfold defineSlot define
  rcases findings.tree.bind_cases definition.scope definition.name definition.kind
    (some definition.span) with ⟨-, bound⟩ | ⟨index, -, bound⟩ | ⟨-, -, bound⟩
  · simp only [bound]
    rcases findings.tree.claimBuiltin_cases findings.tree.symbols.length definition.span with
      ⟨-, -, -, claimed⟩ | ⟨-, claimed⟩ <;> simp [claimed, amended]
  · simp only [bound]
    rcases findings.tree.claimBuiltin_cases index definition.span with
      ⟨-, -, -, claimed⟩ | ⟨-, claimed⟩ <;> simp [claimed, amended]
  · simp [bound]

theorem defineSlot_scopes_length (findings : Findings) (definition : Definition) :
    (findings.defineSlot definition).tree.scopes.length = findings.tree.scopes.length := by
  rw [← ScopeTree.parents_length, (findings.defineSlot_frame definition).2,
    ScopeTree.parents_length]

/-! ## Records -/

/-- What a walk has on record behind these definitions and uses. -/
structure Records (builtins : List String) (definitions : List Definition) (usages : List Usage)
    (findings : Findings) : Prop where
  consistent : findings.tree.Consistent
  outward : findings.tree.Outward
  standing : ∀ slot, (findings.tree.symbolAt slot).map Symbol.definition =
    slot.standing builtins definitions
  unused : ∀ symbol ∈ findings.tree.symbols, symbol.references = []
  errors : findings.errors = Definition.duplicates definitions
  usages : findings.usages = usages
  inside : ∀ scope ∈ ScopeTree.globalScope :: findings.around,
    scope < findings.tree.scopes.length

namespace Records

variable {builtins : List String} {definitions : List Definition} {usages : List Usage}
  {findings : Findings}

private theorem find_eq_none {slot : Slot}
    (undefined : (slot.standing builtins definitions).join = none) :
    definitions.find? (·.slot == slot) = none := by
  unfold Slot.standing at undefined
  split at undefined
  · simp at undefined
  · assumption

private theorem find_of_defined {slot : Slot} {span : Span}
    (defined : slot.standing builtins definitions = some (some span)) :
    ∃ first, definitions.find? (·.slot == slot) = some first ∧ first.span = span := by
  unfold Slot.standing at defined
  split at defined
  · next first found => exact ⟨first, found, by simpa using defined⟩
  · split at defined <;> simp at defined

/-- The definition of a symbol is a definition of its slot. -/
theorem mem_definitions (records : Records builtins definitions usages findings) {index : Nat}
    {symbol : Symbol} (found : findings.tree.symbols[index]? = some symbol) {span : Span}
    (defined : symbol.definition = some span) :
    ∃ definition ∈ definitions, definition.slot = symbol.slot ∧ definition.span = span := by
  have slot : findings.tree.at? symbol.slot = some index :=
    (records.consistent symbol.slot index).2 (by rw [found, Option.map_some])
  have standing := records.standing symbol.slot
  rw [ScopeTree.symbolAt, slot, Option.bind_some, found, Option.map_some, defined] at standing
  obtain ⟨first, earliest, same⟩ := find_of_defined standing.symm
  exact ⟨first, List.mem_of_find?_eq_some earliest, by simpa using List.find?_some earliest, same⟩

/-- The slots with a symbol are those that are defined and those of the builtins. -/
theorem isSome_at? (records : Records builtins definitions usages findings) (slot : Slot) :
    (findings.tree.at? slot).isSome = true ↔
      (∃ definition ∈ definitions, definition.slot = slot) ∨ slot.isBuiltin builtins = true := by
  rw [← Slot.isSome_standing, ← records.standing slot, Option.isSome_map,
    records.consistent.isSome_symbolAt]

/-- The step of a definition. -/
theorem define (records : Records builtins definitions usages findings)
    {definition : Definition} (inside : definition.scope < findings.tree.scopes.length) :
    Records builtins (definitions ++ [definition]) usages (findings.defineSlot definition) := by
  have before := records.standing definition.slot
  rcases defineSlot_cases records.consistent inside with
    ⟨free, equal⟩ | ⟨index, symbol, found, here, builtin, equal⟩ |
      ⟨symbol, first, here, defined, equal⟩
  · rw [ScopeTree.symbolAt, free] at before
    have missing := find_eq_none (congrArg Option.join before.symm)
    rw [equal]
    refine ⟨records.consistent.extend inside free, records.outward.extend _, fun slot => ?_,
      fun symbol member => ?_, ?_, records.usages, fun scope member => ?_⟩
    · rw [records.consistent.symbolAt_extend definition.symbol inside free,
        Slot.standing_concat, ← records.standing slot]
      by_cases same : slot = definition.slot
      · subst same
        rw [Definition.symbol_slot, if_pos rfl, if_pos ⟨rfl, missing⟩]
        rfl
      · simp [same]
    · rcases List.mem_append.1 member with old | new
      · exact records.unused symbol old
      · simp [List.mem_singleton.1 new, Definition.symbol]
    · simp [Definition.duplicates_concat, missing, records.errors]
    · simpa [ScopeTree.extend] using records.inside scope member
  · rw [here, Option.map_some, builtin] at before
    have missing := find_eq_none (congrArg Option.join before.symm)
    rw [equal]
    refine ⟨records.consistent.amend index fun _ => rfl, records.outward, fun slot => ?_,
      fun symbol member => ?_, ?_, records.usages, records.inside⟩
    · rw [ScopeTree.symbolAt_amend, Slot.standing_concat, ← records.standing slot]
      by_cases same : slot = definition.slot
      · subst same
        simp [missing, found, here]
      · have other : findings.tree.at? slot ≠ some index := by
          intro taken
          obtain ⟨one, at_, here⟩ := records.consistent.symbol found
          obtain ⟨two, again, there⟩ := records.consistent.symbol taken
          obtain rfl : one = two := Option.some.inj (at_.symm.trans again)
          exact same (there.symm.trans here)
        simp [same, other]
    · obtain ⟨old, there, rfl | rfl⟩ := ScopeTree.mem_amend member
      · exact records.unused _ there
      · exact records.unused old there
    · simp [Definition.duplicates_concat, missing, records.errors]
  · rw [here, Option.map_some, defined] at before
    obtain ⟨earliest, found, rfl⟩ := find_of_defined before.symm
    rw [equal]
    refine ⟨records.consistent, records.outward, fun slot => ?_, records.unused, ?_,
      records.usages, records.inside⟩
    · rw [Slot.standing_concat, ← records.standing slot, if_neg]
      rintro ⟨rfl, missing⟩
      simp [found] at missing
    · simp [Definition.duplicates_concat, found, records.errors]

theorem openScope (records : Records builtins definitions usages findings) {around : Nat}
    (inside : around < findings.tree.scopes.length) (span : Span) :
    Records builtins definitions usages
      { findings with
        tree := (findings.tree.openScope around span).2
        around := findings.tree.scopes.length :: findings.around } := by
  have longer : (findings.tree.openScope around span).2.scopes.length =
      findings.tree.scopes.length + 1 := by simp [ScopeTree.openScope]
  refine ⟨records.consistent.openScope around span, records.outward.openScope inside span,
    fun slot => ?_, records.unused, records.errors, records.usages, fun scope member => ?_⟩
  · rw [← records.standing slot, ScopeTree.symbolAt, ScopeTree.at?_openScope]
    rfl
  · simp only [longer]
    have := records.inside scope
    simp only [List.mem_cons] at member this
    rcases member with rfl | rfl | member
    · have := this (.inl rfl)
      omega
    · omega
    · have := this (.inr member)
      omega

theorem leave (records : Records builtins definitions usages findings) :
    Records builtins definitions usages { findings with around := findings.around.tail } :=
  { records with
    inside := fun scope member => records.inside scope
      (List.cons_subset_cons _ (List.tail_sublist _).subset member) }

theorem noteUsage (records : Records builtins definitions usages findings) (name : String)
    (kind : SymbolKind) (span : Span) :
    Records builtins definitions (usages ++ [⟨name, kind, span, findings.scope⟩])
      (findings.noteUsage name kind span) :=
  { records with usages := congrArg (· ++ _) records.usages }

end Records

/-! ## Walks -/

/-- A part of a walk that meets these definitions and uses, and labels that stand in these scopes,
and leaves those labels again. -/
structure Adds (definitions : List Definition) (usages : List Usage) (labels : List Nat)
    (before after : Findings) : Prop where
  records : ∀ {builtins earlier used}, Records builtins earlier used before →
    Records builtins (earlier ++ definitions) (used ++ usages) after
  around : after.around = before.around
  parents : after.tree.parents = before.tree.parents ++ labels.map some

namespace Adds

variable {first second third : Findings} {definitions others : List Definition}
  {usages further : List Usage} {labels more : List Nat}

theorem nil (findings : Findings) : Adds [] [] [] findings findings :=
  ⟨fun records => by simpa using records, rfl, by simp⟩

theorem append (one : Adds definitions usages labels first second)
    (two : Adds others further more second third) :
    Adds (definitions ++ others) (usages ++ further) (labels ++ more) first third where
  records := fun start => by
    rw [← List.append_assoc, ← List.append_assoc]
    exact two.records (one.records start)
  around := two.around.trans one.around
  parents := by rw [two.parents, one.parents, List.map_append, List.append_assoc]

theorem scope (adds : Adds definitions usages labels first second) :
    second.scope = first.scope := by
  rw [Findings.scope, Findings.scope, adds.around]

theorem scopes (adds : Adds definitions usages labels first second) :
    second.tree.scopes.length = first.tree.scopes.length + labels.length := by
  rw [← ScopeTree.parents_length, adds.parents, List.length_append, List.length_map,
    ScopeTree.parents_length]

theorem define {definition : Definition}
    (inside : definition.scope ∈ ScopeTree.globalScope :: first.around) :
    Adds [definition] [] [] first (first.defineSlot definition) where
  records := fun start => by
    rw [List.append_nil]
    exact start.define (start.inside _ inside)
  around := (first.defineSlot_frame definition).1
  parents := by rw [(first.defineSlot_frame definition).2, List.map_nil, List.append_nil]

theorem defineTarget (assignment : Option Assignment) :
    Adds (Assignment.definitions assignment) [] [] first (first.defineTarget assignment) := by
  unfold Findings.defineTarget Assignment.definitions
  cases assignment.bind Assignment.target? with
  | none => exact .nil first
  | some target => exact .define List.mem_cons_self

theorem noteUsage (name : String) (kind : SymbolKind) (span : Span) :
    Adds [] [⟨name, kind, span, first.scope⟩] [] first (first.noteUsage name kind span) where
  records := fun start => by
    rw [List.append_nil]
    exact start.noteUsage name kind span
  around := rfl
  parents := (List.append_nil _).symm

theorem noteTarget (target : Option Identifier) :
    Adds [] (Identifier.usages first.scope target) [] first (first.noteTarget target) := by
  unfold Findings.noteTarget Identifier.usages
  cases target with
  | none => exact .nil first
  | some target => exact .noteUsage _ _ _

theorem defineAll (inside : ∀ definition ∈ definitions,
      definition.scope ∈ ScopeTree.globalScope :: first.around) :
    Adds definitions [] [] first (definitions.foldl defineSlot first) := by
  induction definitions generalizing first with
  | nil => exact .nil first
  | cons definition rest ih =>
      refine (define (inside definition (by simp))).append (ih fun later member => ?_)
      rw [(first.defineSlot_frame definition).1]
      exact inside later (by simp [member])

end Adds

/-! ## Labels -/

/-- The findings with a scope opened in another, and entered. -/
def opened (findings : Findings) (around : Nat) (span : Span) : Findings :=
  { findings with
    tree := (findings.tree.openScope around span).2
    around := findings.tree.scopes.length :: findings.around }

/-- What happens in the scope of a label is added behind its opening. -/
theorem Adds.label {first last : Findings} {definitions : List Definition} {usages : List Usage}
    {labels : List Nat} {around : Nat} {span : Span}
    (inside : around ∈ ScopeTree.globalScope :: first.around)
    (adds : Adds definitions usages labels (first.opened around span) last) :
    Adds definitions usages (around :: labels) first { last with around := last.around.tail } where
  records := fun start =>
    (adds.records (start.openScope (start.inside _ inside) span)).leave
  around := congrArg List.tail adds.around
  parents := by
    have more : (first.opened around span).tree.parents = first.tree.parents ++ [some around] :=
      ScopeTree.parents_openScope ..
    rw [adds.parents, more, List.append_assoc]
    rfl

theorem enterLabel_defines (findings : Findings) (head : LabelHead) (span : Span) :
    findings.enterLabel head span =
      (head.parameterDefinitions findings.tree.scopes.length).foldl defineSlot
        (((head.nameDefinitions findings.scope).foldl defineSlot findings).opened
          findings.scope span) := by
  have same : ((head.nameDefinitions findings.scope).foldl defineSlot findings).tree.scopes.length =
      findings.tree.scopes.length := by
    unfold LabelHead.nameDefinitions
    cases head.name with
    | none => rfl
    | some name => exact findings.defineSlot_scopes_length _
  rw [← same]
  unfold enterLabel LabelHead.nameDefinitions LabelHead.parameterDefinitions
  simp only [List.foldl_map]
  cases head.name <;> rfl

theorem scope_mem_around (findings : Findings) :
    findings.scope ∈ ScopeTree.globalScope :: findings.around := by
  unfold scope
  cases findings.around <;> simp

/-- The step of a label: its name stands in the scope around it, its parameters in its own, which
is the next one. -/
theorem enterLabel_adds (first : Findings) (head : LabelHead) (span : Span) :
    (first.enterLabel head span).scope = first.tree.scopes.length ∧
      (first.enterLabel head span).tree.scopes.length = first.tree.scopes.length + 1 ∧
      ∀ {definitions usages labels last},
        Adds definitions usages labels (first.enterLabel head span) last →
        Adds (head.nameDefinitions first.scope ++
            head.parameterDefinitions first.tree.scopes.length ++ definitions) usages
          (first.scope :: labels) first { last with around := last.around.tail } := by
  have names : Adds (head.nameDefinitions first.scope) [] [] first
      ((head.nameDefinitions first.scope).foldl defineSlot first) := by
    refine .defineAll fun definition member => ?_
    obtain ⟨name, -, rfl⟩ := List.mem_map.1 member
    exact first.scope_mem_around
  rw [enterLabel_defines]
  generalize (head.nameDefinitions first.scope).foldl defineSlot first = named at names
  have parameters : Adds (head.parameterDefinitions first.tree.scopes.length) [] []
      (named.opened first.scope span)
      ((head.parameterDefinitions first.tree.scopes.length).foldl defineSlot
        (named.opened first.scope span)) := by
    refine .defineAll fun definition member => ?_
    obtain ⟨parameter, -, rfl⟩ := List.mem_map.1 member
    simp [opened, names.scopes]
  refine ⟨parameters.scope.trans names.scopes, ?_, fun adds => ?_⟩
  · rw [parameters.scopes]
    simp [opened, ScopeTree.openScope, names.scopes]
  · have inside := names.around ▸ first.scope_mem_around
    simpa using names.append (.label inside (parameters.append adds))

end Findings

open Findings

/-! ## Runs -/

/-- The findings behind a part of a walk. -/
def Findings.meetAll (findings : Findings) (encounters : List Encounter) : Findings :=
  encounters.foldl meet findings

@[simp] theorem Findings.meetAll_append (findings : Findings) (first second : List Encounter) :
    findings.meetAll (first ++ second) = (findings.meetAll first).meetAll second :=
  List.foldl_append

theorem Expression.walk_adds (expression : Expression) (before : Findings) :
    Adds [] (expression.usages before.scope) [] before (before.meetAll expression.walk) := by
  induction expression with
  | literal value => exact .nil before
  | reference name => exact .noteUsage _ _ _
  | parenthesized inner span ih => exact ih
  | assignment left operator right span _ ih => exact ih
  | python code => exact .nil before

theorem Expression.walkOption_adds (expression : Option Expression) (before : Findings) :
    Adds [] (expression.toList.flatMap (usages before.scope)) [] before
      (before.meetAll (walkOption expression)) := by
  cases expression with
  | none => exact .nil before
  | some expression =>
      rw [Option.toList_some, List.flatMap_singleton]
      exact expression.walk_adds before

theorem Findings.meetAll_adds (walk : α → List Encounter) (usages : Nat → α → List Usage)
    (each : ∀ item before, Adds [] (usages before.scope item) [] before
      (before.meetAll (walk item))) (items : List α) (before : Findings) :
    Adds [] (items.flatMap (usages before.scope)) [] before
      (before.meetAll (items.flatMap walk)) := by
  induction items generalizing before with
  | nil => exact .nil before
  | cons item rest ih =>
      have one := each item before
      have two := ih (before.meetAll (walk item))
      rw [one.scope] at two
      rw [List.flatMap_cons, List.flatMap_cons, meetAll_append]
      exact one.append two

theorem Assignment.walk_adds (assignment : Option Assignment) (before : Findings) :
    Adds (definitions assignment) (usages before.scope assignment) [] before
      ((before.defineTarget assignment).meetAll (walkOption assignment)) := by
  have target : Adds (definitions assignment) [] [] before (before.defineTarget assignment) :=
    .defineTarget assignment
  have right : Adds [] (usages before.scope assignment) [] (before.defineTarget assignment)
      ((before.defineTarget assignment).meetAll (walkOption assignment)) := by
    rw [← target.scope]
    unfold usages
    cases assignment with
    | none => exact .nil _
    | some assignment =>
        rw [Option.toList_some, List.flatMap_singleton]
        exact assignment.right.walk_adds _
  simpa using target.append right

/-- The step of a label, from what its body adds. -/
theorem Statement.label_adds {head : LabelHead} {body : List Statement} {span : Span}
    (walked : ∀ before : Findings, Adds
      (definitionsOfAll before.scope before.tree.scopes.length body)
      (usagesOfAll before.scope before.tree.scopes.length body)
      (outerScopesOfAll before.scope before.tree.scopes.length body) before
      (before.meetAll (walkAll body))) (before : Findings) :
    Adds ((Statement.label head body span).definitions before.scope before.tree.scopes.length)
      ((Statement.label head body span).usages before.scope before.tree.scopes.length)
      ((Statement.label head body span).outerScopes before.scope before.tree.scopes.length) before
      (before.meetAll (Statement.label head body span).walk) := by
  have defaults : Adds [] (head.usages before.scope) [] before
      (before.meetAll (head.parameters.flatMap fun parameter : Parameter =>
        Expression.walkOption parameter.default)) :=
    meetAll_adds (fun parameter : Parameter => Expression.walkOption parameter.default)
      Parameter.usages (fun parameter => Expression.walkOption_adds parameter.default)
      head.parameters before
  rw [walk, meetAll_append]
  generalize before.meetAll _ = first at defaults
  obtain ⟨scope, count, label⟩ := first.enterLabel_adds head span
  have inside := walked (first.enterLabel head span)
  rw [scope, count, defaults.scopes] at inside
  have total := defaults.append (label inside)
  rw [defaults.scopes, defaults.scope] at total
  simpa [definitions, usages, outerScopes, meetAll, meet] using total

mutual

theorem Statement.walk_adds : ∀ (statement : Statement) (before : Findings),
    Adds (statement.definitions before.scope before.tree.scopes.length)
      (statement.usages before.scope before.tree.scopes.length)
      (statement.outerScopes before.scope before.tree.scopes.length) before
      (before.meetAll statement.walk)
  | .define binding, before => Assignment.walk_adds binding.assignment before
  | .defaultValue binding, before => Assignment.walk_adds binding.assignment before
  | .label _ body _, before => Statement.label_adds (Statement.walkAll_adds body) before
  | .jump transfer, _ => .noteTarget transfer.target
  | .call transfer, before => by
      have target : Adds [] (Identifier.usages before.scope transfer.target) [] before
          (before.noteTarget transfer.target) := .noteTarget transfer.target
      have arguments := meetAll_adds Expression.walk Expression.usages Expression.walk_adds
        transfer.arguments (before.noteTarget transfer.target)
      rw [target.scope] at arguments
      exact target.append arguments
  | .return value _, before => Expression.walkOption_adds value before
  | .pass _, before => .nil before
  | .pause duration _, before => Expression.walkOption_adds duration before
  | .python .., before => .nil before

theorem Statement.walkAll_adds : ∀ (statements : List Statement) (before : Findings),
    Adds (definitionsOfAll before.scope before.tree.scopes.length statements)
      (usagesOfAll before.scope before.tree.scopes.length statements)
      (outerScopesOfAll before.scope before.tree.scopes.length statements) before
      (before.meetAll (walkAll statements))
  | [], before => .nil before
  | statement :: rest, before => by
      have one := Statement.walk_adds statement before
      have two := Statement.walkAll_adds rest (before.meetAll statement.walk)
      rw [one.scope, one.scopes, Statement.outerScopes_length] at two
      rw [walkAll, meetAll_append]
      exact one.append two

end

/-! ## Builtins -/

namespace Findings.Records

variable {builtins : List String} {tree : ScopeTree}

private theorem standing_builtin (slot : Slot) :
    slot.standing builtins [] = if slot.isBuiltin builtins then some none else none := rfl

/-- The step of a builtin, before anything is walked; one that is listed again changes nothing. -/
private theorem bindBuiltin (records : Records builtins [] [] { tree }) (name : String) :
    Records (builtins ++ [name]) [] []
      { tree := (tree.bind ScopeTree.globalScope name .«variable» none).2 } := by
  have inside : ScopeTree.globalScope < tree.scopes.length :=
    records.inside _ List.mem_cons_self
  have listed (slot : Slot) : slot.standing (builtins ++ [name]) [] =
      if slot = .globalVariable name then some none else slot.standing builtins [] := by
    simp only [standing_builtin, Slot.isBuiltin, List.any_append, List.any_cons, List.any_nil,
      Bool.or_false, Bool.or_eq_true, beq_iff_eq]
    by_cases same : slot = .globalVariable name <;> simp [same]
  rcases tree.bind_cases ScopeTree.globalScope name .«variable» none with
    ⟨outside, -⟩ | ⟨index, found, equal⟩ | ⟨-, free, equal⟩
  · omega
  · rw [equal]
    refine { records with standing := fun slot => ?_ }
    rw [listed]
    split
    · next same =>
        -- The slot has a symbol, and only builtins have one yet.
        have before := records.standing slot
        obtain ⟨symbol, at_, -⟩ := records.consistent.symbol found
        have here : tree.symbolAt slot = some symbol := by
          rw [same, ScopeTree.symbolAt, show tree.at? (.globalVariable name) = _ from found]
          exact at_
        rw [standing_builtin] at before
        simp only [here, Option.map_some] at before ⊢
        split at before
        · exact before
        · cases before
    · exact records.standing slot
  · rw [equal]
    refine ⟨records.consistent.extend inside free, records.outward.extend _, fun slot => ?_,
      fun other member => ?_, records.errors, records.usages, fun scope member => ?_⟩
    · rw [records.consistent.symbolAt_extend ⟨name, .«variable», ScopeTree.globalScope, none, []⟩
        inside free, listed]
      show Option.map _ (if slot = .globalVariable name then _ else _) = _
      split
      · rfl
      · exact records.standing slot
    · rcases List.mem_append.1 member with old | new
      · exact records.unused other old
      · simp [List.mem_singleton.1 new]
    · simpa [ScopeTree.extend] using records.inside scope member

theorem initial (span : Span) (builtins : List String) :
    Records builtins [] [] { tree := Resolution.initialTree span builtins } := by
  have start : Records [] [] [] { tree := .ofSpan span } := by
    refine ⟨.ofSpan span, .ofSpan span, fun slot => ?_, by simp [ScopeTree.ofSpan], rfl, rfl, ?_⟩
    · simp [ScopeTree.symbolAt, ScopeTree.ofSpan, standing_builtin, Slot.isBuiltin]
    · simp [ScopeTree.globalScope, ScopeTree.ofSpan]
  have run (done rest : List String) (tree : ScopeTree) (records : Records done [] [] { tree }) :
      Records (done ++ rest) [] []
        { tree := rest.foldl
            (fun tree name => (tree.bind ScopeTree.globalScope name .«variable» none).2) tree } := by
    induction rest generalizing done tree with
    | nil => simpa using records
    | cons name rest ih =>
        rw [List.append_cons]
        exact ih _ _ (records.bindBuiltin name)
  exact run [] builtins _ start

end Findings.Records

namespace Resolution

theorem initialTree_parents (span : Span) (builtins : List String) :
    (initialTree span builtins).parents = [none] := by
  unfold initialTree
  have start : (ScopeTree.ofSpan span).parents = [none] := rfl
  generalize ScopeTree.ofSpan span = tree at start
  induction builtins generalizing tree with
  | nil => exact start
  | cons name rest ih => exact ih _ ((tree.bind_parents ..).trans start)

/-- What the walk over a document adds. -/
theorem findings_adds (document : Document) (builtins : List String) :
    Adds document.definitions document.usages document.outerScopes
      { tree := initialTree document.span builtins } (findings document builtins) := by
  have adds := Statement.walkAll_adds document.statements
    { tree := initialTree document.span builtins }
  rw [← ScopeTree.parents_length, initialTree_parents] at adds
  exact adds

/-- Behind the whole walk all definitions and uses of the document are on record. -/
theorem findings_records (document : Document) (builtins : List String) :
    Records builtins document.definitions document.usages (findings document builtins) :=
  (findings_adds document builtins).records (.initial document.span builtins)

/-- The scopes of a document lie in each other as its labels do. -/
theorem findings_parents (document : Document) (builtins : List String) :
    (findings document builtins).tree.parents = none :: document.outerScopes.map some := by
  rw [(findings_adds document builtins).parents]
  exact congrArg (· ++ _) (initialTree_parents document.span builtins)

end Resolution

end NovelScript
