import NovelScript.Scope.Tree

/-!
# Slots of a scope tree

A slot is a name in one of the two namespaces of a scope.  However a tree came about, the names of
its scopes and its symbols agree: a slot leads to a symbol exactly if that symbol stands in the
slot, so that no slot ever has two.
-/

namespace NovelScript

structure Slot where
  scope : Nat
  name : String
  isFunction : Bool
  deriving DecidableEq, Repr

def Symbol.slot (symbol : Symbol) : Slot := ⟨symbol.scope, symbol.name, symbol.kind.isFunction⟩

theorem Scope.get?_insert (scope : Scope) (name other : String) (kind otherKind : SymbolKind)
    (symbol : Nat) :
    (scope.insert name kind symbol).get? other otherKind =
      (scope.get? other otherKind).or
        (if other = name ∧ otherKind.isFunction = kind.isFunction then some symbol else none) := by
  have added (names : List (String × Nat)) :
      (names ++ [(name, symbol)]).lookup other =
        (names.lookup other).or (if other = name then some symbol else none) := by
    rw [List.lookup_append, List.lookup_cons, List.lookup_nil]
    by_cases same : other = name
    · simp [same]
    · simp [same, beq_false_of_ne same]
  unfold get? bindings insert
  cases kind.isFunction <;> cases otherKind.isFunction <;> simp [added]

theorem Scope.insert_parent (scope : Scope) (name : String) (kind : SymbolKind) (symbol : Nat) :
    (scope.insert name kind symbol).parent = scope.parent := by
  unfold insert
  split <;> rfl

theorem Scope.insert_span (scope : Scope) (name : String) (kind : SymbolKind) (symbol : Nat) :
    (scope.insert name kind symbol).span = scope.span := by
  unfold insert
  split <;> rfl

namespace ScopeTree

/-- The symbol that a scope has for a name. -/
def at? (tree : ScopeTree) (slot : Slot) : Option Nat :=
  (tree.scopes[slot.scope]?).bind fun found =>
    (if slot.isFunction then found.functionNames else found.variableNames).lookup slot.name

theorem get?_eq (tree : ScopeTree) (scope : Nat) (name : String) (kind : SymbolKind) :
    tree.get? scope name kind = tree.at? ⟨scope, name, kind.isFunction⟩ := rfl

def symbolAt (tree : ScopeTree) (slot : Slot) : Option Symbol :=
  (tree.at? slot).bind (tree.symbols[·]?)

def parent? (tree : ScopeTree) (scope : Nat) : Option Nat :=
  (tree.scopes[scope]?).bind Scope.parent

/-- The scope around each scope. -/
def parents (tree : ScopeTree) : List (Option Nat) := tree.scopes.map Scope.parent

theorem parent?_eq (tree : ScopeTree) (scope : Nat) :
    tree.parent? scope = (tree.parents[scope]?).join := by
  unfold parent? parents
  rw [List.getElem?_map]
  cases tree.scopes[scope]? <;> rfl

@[simp] theorem parents_length (tree : ScopeTree) : tree.parents.length = tree.scopes.length :=
  List.length_map ..

/-- A tree in which the names of the scopes and the slots of the symbols are the same. -/
def Consistent (tree : ScopeTree) : Prop :=
  ∀ slot index, tree.at? slot = some index ↔ (tree.symbols[index]?).map Symbol.slot = some slot

/-- A tree in which every scope comes behind the one around it. -/
def Outward (tree : ScopeTree) : Prop :=
  ∀ scope parent, tree.parent? scope = some parent → parent < scope

variable {tree : ScopeTree}

/-! ## New symbols -/

/-- The tree with one more symbol, bound in the scope that it names. -/
def extend (tree : ScopeTree) (symbol : Symbol) : ScopeTree :=
  ⟨tree.scopes.modify symbol.scope (·.insert symbol.name symbol.kind tree.symbols.length),
    tree.symbols ++ [symbol]⟩

/-- A new symbol changes nothing of its scope but the names. -/
theorem map_extend {α : Type} {part : Scope → α}
    (kept : ∀ scope name kind symbol, part (Scope.insert scope name kind symbol) = part scope)
    (symbol : Symbol) : (tree.extend symbol).scopes.map part = tree.scopes.map part := by
  refine List.ext_getElem? fun scope => ?_
  simp only [extend, List.getElem?_map, List.getElem?_modify]
  cases tree.scopes[scope]? with
  | none => rfl
  | some old => by_cases same : symbol.scope = scope <;> simp [same, kept]

@[simp] theorem parents_extend (tree : ScopeTree) (symbol : Symbol) :
    (tree.extend symbol).parents = tree.parents :=
  map_extend Scope.insert_parent symbol

/-- A name is bound in a scope that has it not; everything else leaves the tree as it was. -/
theorem bind_cases (tree : ScopeTree) (scope : Nat) (name : String) (kind : SymbolKind)
    (definition : Option Span) :
    (tree.scopes.length ≤ scope ∧
      tree.bind scope name kind definition = (.taken tree.symbols.length, tree)) ∨
    (∃ index, tree.at? ⟨scope, name, kind.isFunction⟩ = some index ∧
      tree.bind scope name kind definition = (.taken index, tree)) ∨
    (scope < tree.scopes.length ∧ tree.at? ⟨scope, name, kind.isFunction⟩ = none ∧
      tree.bind scope name kind definition =
        (.bound tree.symbols.length, tree.extend ⟨name, kind, scope, definition, []⟩)) := by
  cases found : tree.scopes[scope]? with
  | none =>
      refine .inl ⟨List.getElem?_eq_none_iff.1 found, ?_⟩
      simp only [bind, found]
  | some target =>
      have here : tree.at? ⟨scope, name, kind.isFunction⟩ = target.get? name kind := by
        rw [← get?_eq, get?, found, Option.bind_some]
      cases taken : target.get? name kind with
      | some index =>
          refine .inr (.inl ⟨index, here.trans taken, ?_⟩)
          simp only [bind, found, taken]
      | none =>
          obtain ⟨inside, equal⟩ := List.getElem?_eq_some_iff.1 found
          have scopes : tree.scopes.set scope (target.insert name kind tree.symbols.length) =
              tree.scopes.modify scope (·.insert name kind tree.symbols.length) := by
            refine List.ext_getElem? fun other => ?_
            rw [List.getElem?_set, List.getElem?_modify]
            by_cases same : scope = other
            · subst same
              simp [inside, equal]
            · simp [same]
          refine .inr (.inr ⟨inside, here.trans taken, ?_⟩)
          simp only [bind, found, taken, extend, scopes]

/-- Binding a name opens no scope. -/
theorem bind_parents (tree : ScopeTree) (scope : Nat) (name : String) (kind : SymbolKind)
    (definition : Option Span) :
    (tree.bind scope name kind definition).2.parents = tree.parents := by
  rcases tree.bind_cases scope name kind definition with
    ⟨-, equal⟩ | ⟨index, -, equal⟩ | ⟨-, -, equal⟩ <;> simp [equal]

theorem at?_extend {symbol : Symbol} (inside : symbol.scope < tree.scopes.length)
    (free : tree.at? symbol.slot = none) (slot : Slot) :
    (tree.extend symbol).at? slot =
      if slot = symbol.slot then some tree.symbols.length else tree.at? slot := by
  obtain ⟨scope, name, isFunction⟩ := slot
  -- Each namespace is that of some kind, so that the scope's own lookup can be asked.
  obtain ⟨kind, rfl⟩ : ∃ kind : SymbolKind, kind.isFunction = isFunction := by
    cases isFunction
    · exact ⟨.«variable», rfl⟩
    · exact ⟨.function, rfl⟩
  rw [← get?_eq, ← get?_eq, get?, get?, extend, List.getElem?_modify]
  by_cases here : symbol.scope = scope
  · subst here
    rw [List.getElem?_eq_getElem inside]
    simp only [if_pos, Option.map_eq_map, Option.map_some, Option.bind_some, Scope.get?_insert]
    by_cases same : name = symbol.name ∧ kind.isFunction = symbol.kind.isFunction
    · obtain ⟨rfl, namespace_⟩ := same
      have missing : tree.scopes[symbol.scope].get? symbol.name kind = none := by
        have free := free
        rw [Symbol.slot, ← namespace_, ← get?_eq, get?, List.getElem?_eq_getElem inside] at free
        exact free
      simp [missing, Symbol.slot, namespace_]
    · have other : (⟨symbol.scope, name, kind.isFunction⟩ : Slot) ≠ symbol.slot := by
        simpa [Symbol.slot] using same
      simp [same, other]
  · have other : (⟨scope, name, kind.isFunction⟩ : Slot) ≠ symbol.slot := by
      simp [Symbol.slot, Ne.symm here]
    simp [here, other]

theorem parents_openScope (tree : ScopeTree) (around : Nat) (span : Span) :
    (tree.openScope around span).2.parents = tree.parents ++ [some around] := by
  simp [parents, openScope]

/-- A new scope has no names. -/
theorem at?_openScope (tree : ScopeTree) (parent : Nat) (span : Span) (slot : Slot) :
    (tree.openScope parent span).2.at? slot = tree.at? slot := by
  unfold at? openScope
  rcases Nat.lt_trichotomy slot.scope tree.scopes.length with before | last | behind
  · rw [List.getElem?_append_left before]
  · simp [last]
  · rw [List.getElem?_eq_none (by simp; omega), List.getElem?_eq_none (by omega)]

/-- The tree with one symbol changed. -/
def amend (tree : ScopeTree) (index : Nat) (change : Symbol → Symbol) : ScopeTree :=
  { tree with symbols := tree.symbols.modify index change }

theorem claimBuiltin_cases (tree : ScopeTree) (index : Nat) (definition : Span) :
    (∃ symbol, tree.symbols[index]? = some symbol ∧ symbol.definition = none ∧
      tree.claimBuiltin index definition =
        (true, tree.amend index ({ · with definition := some definition }))) ∨
    ((∀ symbol, tree.symbols[index]? = some symbol → symbol.definition ≠ none) ∧
      tree.claimBuiltin index definition = (false, tree)) := by
  unfold claimBuiltin
  cases found : tree.symbols[index]? with
  | none => exact .inr ⟨by simp, rfl⟩
  | some symbol =>
      cases builtin : symbol.isBuiltin with
      | true =>
          obtain ⟨inside, equal⟩ := List.getElem?_eq_some_iff.1 found
          have symbols : tree.symbols.set index { symbol with definition := some definition } =
              tree.symbols.modify index ({ · with definition := some definition }) := by
            refine List.ext_getElem? fun other => ?_
            rw [List.getElem?_set, List.getElem?_modify]
            by_cases same : index = other
            · subst same
              simp [inside, equal]
            · simp [same]
          refine .inl ⟨symbol, rfl, by simpa [Symbol.isBuiltin] using builtin, ?_⟩
          simp [builtin, amend, symbols]
      | false =>
          refine .inr ⟨?_, by simp [builtin]⟩
          rintro _ ⟨⟩ missing
          simp [Symbol.isBuiltin, missing] at builtin

theorem symbolAt_amend {index : Nat} {change : Symbol → Symbol} (slot : Slot) :
    (tree.amend index change).symbolAt slot =
      if tree.at? slot = some index then (tree.symbolAt slot).map change
      else tree.symbolAt slot := by
  have same : (tree.amend index change).at? slot = tree.at? slot := rfl
  unfold symbolAt
  rw [same]
  cases found : tree.at? slot with
  | none => simp
  | some other =>
      simp only [Option.bind_some, amend, List.getElem?_modify, Option.some.injEq, eq_comm]
      split <;> simp

theorem mem_amend {index : Nat} {change : Symbol → Symbol} {symbol : Symbol}
    (member : symbol ∈ (tree.amend index change).symbols) :
    ∃ old ∈ tree.symbols, symbol = old ∨ symbol = change old := by
  obtain ⟨other, found⟩ := List.mem_iff_getElem?.1 member
  simp only [amend, List.getElem?_modify, Option.map_eq_map, Option.map_eq_some_iff] at found
  obtain ⟨old, at_, equal⟩ := found
  refine ⟨old, List.mem_of_getElem? at_, ?_⟩
  split at equal
  · exact .inr equal.symm
  · exact .inl equal.symm

/-! ## Consistent trees -/

namespace Consistent

/-- A slot that leads to an index has a symbol there. -/
theorem symbol (consistent : tree.Consistent) {slot : Slot} {index : Nat}
    (found : tree.at? slot = some index) :
    ∃ symbol, tree.symbols[index]? = some symbol ∧ symbol.slot = slot :=
  Option.map_eq_some_iff.1 ((consistent slot index).1 found)

theorem isSome_symbolAt (consistent : tree.Consistent) (slot : Slot) :
    (tree.symbolAt slot).isSome = (tree.at? slot).isSome := by
  unfold symbolAt
  cases found : tree.at? slot with
  | none => rfl
  | some index =>
      obtain ⟨symbol, at_, -⟩ := consistent.symbol found
      simp [at_]

theorem ofSpan (span : Span) : (ScopeTree.ofSpan span).Consistent := by
  intro slot index
  rcases slot with ⟨_ | scope, name, _ | _⟩ <;> simp [at?, ScopeTree.ofSpan]

theorem openScope (consistent : tree.Consistent) (parent : Nat) (span : Span) :
    (tree.openScope parent span).2.Consistent := by
  intro slot index
  rw [at?_openScope]
  exact consistent slot index

theorem amend (consistent : tree.Consistent) (index : Nat) {change : Symbol → Symbol}
    (keeps : ∀ symbol, (change symbol).slot = symbol.slot) :
    (tree.amend index change).Consistent := by
  intro slot other
  have same : ((tree.amend index change).symbols[other]?).map Symbol.slot =
      (tree.symbols[other]?).map Symbol.slot := by
    simp only [ScopeTree.amend, List.getElem?_modify]
    cases tree.symbols[other]? with
    | none => rfl
    | some symbol =>
        by_cases here : index = other
        · simp [here, keeps]
        · simp [here]
  rw [same]
  exact consistent slot other

theorem extend (consistent : tree.Consistent) {symbol : Symbol}
    (inside : symbol.scope < tree.scopes.length) (free : tree.at? symbol.slot = none) :
    (tree.extend symbol).Consistent := by
  intro slot index
  rw [at?_extend inside free]
  have old := consistent slot index
  rcases Nat.lt_trichotomy index tree.symbols.length with before | rfl | behind
  · rw [ScopeTree.extend, List.getElem?_append_left before, ← old]
    split
    · next same =>
        rw [same, free]
        simp only [Option.some.injEq, reduceCtorEq, iff_false]
        omega
    · rfl
  · simp only [ScopeTree.extend, List.getElem?_concat_length, Option.map_some, Option.some.injEq]
    rw [List.getElem?_eq_none (Nat.le_refl _)] at old
    split
    · next same => simp [same]
    · next other => simpa [Ne.symm other] using old
  · rw [List.getElem?_eq_none (Nat.le_of_lt behind)] at old
    rw [ScopeTree.extend, List.getElem?_eq_none (by simp; omega)]
    split
    · simp only [Option.some.injEq, Option.map_none, reduceCtorEq, iff_false]
      omega
    · exact old

theorem symbolAt_extend (consistent : tree.Consistent) (symbol : Symbol)
    (inside : symbol.scope < tree.scopes.length) (free : tree.at? symbol.slot = none)
    (slot : Slot) :
    (tree.extend symbol).symbolAt slot =
      if slot = symbol.slot then some symbol else tree.symbolAt slot := by
  unfold symbolAt
  rw [at?_extend inside free]
  split
  · simp [ScopeTree.extend]
  · cases found : tree.at? slot with
    | none => rfl
    | some index =>
        obtain ⟨other, at_, -⟩ := consistent.symbol found
        obtain ⟨before, -⟩ := List.getElem?_eq_some_iff.1 at_
        simp [ScopeTree.extend, List.getElem?_append_left before]

private theorem filter_eq_singleton {items : List Symbol} {holds : Symbol → Bool} {index : Nat}
    {item : Symbol} (here : items[index]? = some item) (accepted : holds item = true)
    (only : ∀ other value, items[other]? = some value → holds value = true → other = index) :
    items.filter holds = [item] := by
  induction items generalizing index with
  | nil => simp at here
  | cons first rest ih =>
      cases index with
      | zero =>
          obtain rfl : first = item := by simpa using here
          have others : rest.filter holds = [] := by
            refine List.filter_eq_nil_iff.2 fun value member holds_ => ?_
            obtain ⟨other, at_⟩ := List.mem_iff_getElem?.1 member
            simpa using only (other + 1) value (by simpa using at_) holds_
          simp [accepted, others]
      | succ index =>
          have refused : holds first = false := by
            refine Bool.eq_false_iff.2 fun holds_ => ?_
            simpa using only 0 first (by simp) holds_
          rw [List.filter_cons_of_neg (by simp [refused])]
          refine ih (by simpa using here) fun other value at_ holds_ => ?_
          simpa using only (other + 1) value (by simpa using at_) holds_

/-- The symbol that a slot leads to is the only one that stands there. -/
theorem filter_slot (consistent : tree.Consistent) (slot : Slot) :
    tree.symbols.filter (·.slot == slot) = (tree.symbolAt slot).toList := by
  have only (index : Nat) (symbol : Symbol) (at_ : tree.symbols[index]? = some symbol)
      (same : (symbol.slot == slot) = true) : tree.at? slot = some index := by
    rw [consistent slot index, at_, Option.map_some, eq_of_beq same]
  cases found : tree.at? slot with
  | none =>
      simp only [symbolAt, found, Option.bind_none, Option.toList_none, List.filter_eq_nil_iff]
      intro symbol member same
      obtain ⟨index, at_⟩ := List.mem_iff_getElem?.1 member
      simpa [found] using only index symbol at_ same
  | some index =>
      obtain ⟨symbol, at_, same⟩ := consistent.symbol found
      simp only [symbolAt, found, Option.bind_some, at_, Option.toList_some]
      refine filter_eq_singleton at_ (by simp [same]) fun other value there holds => ?_
      simpa [found, eq_comm] using only other value there holds

end Consistent

/-! ## Outward trees -/

namespace Outward

theorem ofSpan (span : Span) : (ScopeTree.ofSpan span).Outward := by
  intro scope parent found
  cases scope <;> simp [parent?, ScopeTree.ofSpan] at found

theorem openScope (outward : tree.Outward) {around : Nat} (inside : around < tree.scopes.length)
    (span : Span) : (tree.openScope around span).2.Outward := by
  intro scope parent found
  unfold parent? ScopeTree.openScope at found
  rcases Nat.lt_trichotomy scope tree.scopes.length with before | rfl | behind
  · rw [List.getElem?_append_left before] at found
    exact outward scope parent found
  · obtain rfl : around = parent := by simpa using found
    exact inside
  · rw [List.getElem?_eq_none (by simp; omega)] at found
    simp at found

theorem extend (outward : tree.Outward) (symbol : Symbol) : (tree.extend symbol).Outward := by
  intro scope parent found
  rw [parent?_eq, parents_extend, ← parent?_eq] at found
  exact outward scope parent found

end Outward

/-! ## Looking up -/

/-- A name is found in the scope itself, or else from the scope around it. -/
inductive Finds (tree : ScopeTree) (name : String) (kind : SymbolKind) : Nat → Nat → Prop
  | here {scope symbol : Nat} (found : tree.get? scope name kind = some symbol) :
      Finds tree name kind scope symbol
  | outside {scope parent symbol : Nat} (missing : tree.get? scope name kind = none)
      (next : tree.parent? scope = some parent) (further : Finds tree name kind parent symbol) :
      Finds tree name kind scope symbol

/-- What is found is a symbol of the tree. -/
theorem Consistent.lt_of_finds (consistent : tree.Consistent) {name : String} {kind : SymbolKind}
    {scope index : Nat} (finds : tree.Finds name kind scope index) :
    index < tree.symbols.length := by
  induction finds with
  | here found =>
      rw [get?_eq] at found
      obtain ⟨symbol, at_, -⟩ := consistent.symbol found
      exact (List.getElem?_eq_some_iff.1 at_).1
  | outside missing next further ih => exact ih

theorem lookupWithin_zero (tree : ScopeTree) (name : String) (kind : SymbolKind) (scope : Nat) :
    tree.lookupWithin name kind 0 scope = tree.get? scope name kind := by
  unfold lookupWithin get?
  cases tree.scopes[scope]? with
  | none => rfl
  | some found =>
      dsimp only [Option.bind_some]
      cases found.get? name kind <;> rfl

theorem lookupWithin_succ (tree : ScopeTree) (name : String) (kind : SymbolKind)
    (steps scope : Nat) :
    tree.lookupWithin name kind (steps + 1) scope =
      (tree.get? scope name kind).or
        ((tree.parent? scope).bind (tree.lookupWithin name kind steps)) := by
  rw [lookupWithin.eq_def]
  unfold get? parent?
  dsimp only
  cases tree.scopes[scope]? with
  | none => rfl
  | some found =>
      dsimp only [Option.bind_some]
      cases found.get? name kind with
      | some symbol => rfl
      | none => cases found.parent <;> rfl

theorem lookupWithin_eq_some_iff (outward : tree.Outward) (name : String) (kind : SymbolKind)
    {steps scope symbol : Nat} (enough : scope ≤ steps) :
    tree.lookupWithin name kind steps scope = some symbol ↔
      tree.Finds name kind scope symbol := by
  induction steps generalizing scope with
  | zero =>
      rw [lookupWithin_zero]
      refine ⟨.here, fun finds => ?_⟩
      cases finds with
      | here found => exact found
      | outside _ next =>
          have := outward _ _ next
          omega
  | succ steps ih =>
      rw [lookupWithin_succ]
      cases found : tree.get? scope name kind with
      | some other =>
          rw [Option.some_or, Option.some.injEq]
          refine ⟨fun same => .here (same ▸ found), fun finds => ?_⟩
          cases finds with
          | here again => exact Option.some.inj (found.symm.trans again)
          | outside missing => simp [found] at missing
      | none =>
          rw [Option.none_or, Option.bind_eq_some_iff]
          constructor
          · rintro ⟨parent, next, further⟩
            have closer := outward _ _ next
            exact .outside found next ((ih (by omega)).1 further)
          · intro finds
            cases finds with
            | here again => simp [found] at again
            | @outside _ parent _ _ next further =>
                have closer := outward _ _ next
                exact ⟨parent, next, (ih (by omega)).2 further⟩

/-- In an outward tree the steps of a lookup do not run out. -/
theorem lookup?_eq_some_iff (outward : tree.Outward) (name : String) (kind : SymbolKind)
    {scope symbol : Nat} :
    tree.lookup? scope name kind = some symbol ↔ tree.Finds name kind scope symbol := by
  by_cases inside : scope < tree.scopes.length
  · exact lookupWithin_eq_some_iff outward name kind (Nat.le_of_lt inside)
  · have missing : tree.scopes[scope]? = none := List.getElem?_eq_none (by omega)
    constructor
    · intro found
      unfold lookup? lookupWithin at found
      simp [missing] at found
    · intro finds
      cases finds with
      | here found => simp [get?, missing] at found
      | outside _ next => simp [parent?, missing] at next

/-- Lookups see the scopes only. -/
theorem lookup?_congr {other : ScopeTree} (same : tree.scopes = other.scopes) (scope : Nat)
    (name : String) (kind : SymbolKind) :
    tree.lookup? scope name kind = other.lookup? scope name kind := by
  have bound (scope : Nat) : tree.get? scope name kind = other.get? scope name kind := by
    rw [get?, get?, same]
  unfold lookup?
  rw [same]
  generalize other.scopes.length = steps
  induction steps generalizing scope with
  | zero => rw [lookupWithin_zero, lookupWithin_zero, bound]
  | succ steps ih =>
      have parent : tree.parent? scope = other.parent? scope := by rw [parent?, parent?, same]
      rw [lookupWithin_succ, lookupWithin_succ, bound, parent, funext ih]

end ScopeTree

end NovelScript
