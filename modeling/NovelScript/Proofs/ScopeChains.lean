import NovelScript.Proofs.ScopeTrees

/-!
# Ways outwards

A scope is opened inside whichever scope the caller names, be it there or not.  As long as callers
name scopes that are there, every way outwards leads to the global scope, and a search for a name
comes to an end.  A scope that is opened inside itself, or inside one that is still to come, makes
searches run in a circle.
-/

namespace NovelScript.ScopeTree

/-! ## Changes to a tree -/

/-- A change that a caller may ask for, with any indices. -/
inductive Call where
  | openScope (parent : Nat) (span : Span)
  | bind (scope : Nat) (name : String) (kind : SymbolKind) (definition : Option Span)
  | claimBuiltin (symbol : Nat) (definition : Span)
  | addReference (symbol : Nat) (span : Span)
  deriving DecidableEq, Repr

/-- The scope that a call asks to open one in. -/
def Call.opensIn : Call → Option Nat
  | .openScope parent _ => some parent
  | .bind .. | .claimBuiltin .. | .addReference .. => none

def apply (tree : ScopeTree) : Call → ScopeTree
  | .openScope parent span => (tree.openScope parent span).2
  | .bind scope name kind definition => (tree.bind scope name kind definition).2
  | .claimBuiltin symbol definition => (tree.claimBuiltin symbol definition).2
  | .addReference symbol span => tree.addReference symbol span

def ofCalls (span : Span) (calls : List Call) : ScopeTree := calls.foldl apply (.ofSpan span)

/-- The step of a call: scopes are added behind the others, and never change places. -/
theorem parents_apply (tree : ScopeTree) (call : Call) :
    (tree.apply call).parents = tree.parents ++ call.opensIn.toList.map some := by
  cases call with
  | openScope parent span => exact tree.parents_openScope parent span
  | bind scope name kind definition =>
      simp [apply, Call.opensIn, tree.bind_parents scope name kind definition]
  | claimBuiltin symbol definition =>
      rcases tree.claimBuiltin_cases symbol definition with ⟨-, -, -, equal⟩ | ⟨-, equal⟩ <;>
        simp [apply, Call.opensIn, equal, amend, parents]
  | addReference symbol span => simp [apply, Call.opensIn, addReference, parents]

/-- The run over all calls: the scopes stand inside those that their callers named. -/
theorem parents_ofCalls (span : Span) (calls : List Call) :
    (ofCalls span calls).parents = none :: (calls.filterMap Call.opensIn).map some := by
  have run (tree : ScopeTree) : (calls.foldl apply tree).parents =
      tree.parents ++ (calls.filterMap Call.opensIn).map some := by
    induction calls generalizing tree with
    | nil => simp
    | cons call rest ih =>
        rw [List.foldl_cons, ih, parents_apply, List.append_assoc, ← List.map_append]
        cases opened : call.opensIn <;> simp [opened]
  exact run (.ofSpan span)

/-! ## Ways outwards -/

variable {tree : ScopeTree}

/-- A scope and those around it. -/
inductive Around (tree : ScopeTree) : Nat → Nat → Prop
  | self (scope : Nat) : Around tree scope scope
  | outside {scope parent outer : Nat} (next : tree.parent? scope = some parent)
      (further : Around tree parent outer) : Around tree scope outer

/-- A tree in which every scope but the global one is inside one that came before it. -/
def Rooted (tree : ScopeTree) : Prop :=
  ∀ scope, 0 < scope → scope < tree.scopes.length →
    ∃ parent < scope, tree.parent? scope = some parent

theorem Rooted.around_global (rooted : tree.Rooted) {scope : Nat}
    (inside : scope < tree.scopes.length) : tree.Around scope globalScope := by
  induction scope using Nat.strongRecOn with
  | ind scope ih =>
      rcases Nat.eq_zero_or_pos scope with rfl | inner
      · exact .self globalScope
      · obtain ⟨parent, before, next⟩ := rooted scope inner inside
        exact .outside next (ih parent before (Nat.lt_trans before inside))

theorem Around.congr {other : ScopeTree} (same : tree.parents = other.parents) {scope outer : Nat}
    (around : tree.Around scope outer) : other.Around scope outer := by
  induction around with
  | self scope => exact .self scope
  | outside next _ ih =>
      rw [parent?_eq, same, ← parent?_eq] at next
      exact .outside next ih

/-! ### Trees in which only the global scope stands outside -/

section
variable {outer : List Nat} (same : tree.parents = none :: outer.map some)
include same

theorem parent?_succ (scope : Nat) : tree.parent? (scope + 1) = outer[scope]? := by
  rw [parent?_eq, same, List.getElem?_cons_succ, List.getElem?_map]
  cases outer[scope]? <;> rfl

theorem scopes_length : tree.scopes.length = outer.length + 1 := by
  rw [← parents_length, same, List.length_cons, List.length_map]

theorem outward_iff :
    tree.Outward ↔ ∀ index parent : Nat, outer[index]? = some parent → parent ≤ index := by
  constructor
  · intro outward index parent found
    exact Nat.le_of_lt_succ (outward (index + 1) parent ((parent?_succ same index).trans found))
  · intro before scope parent next
    cases scope with
    | zero => simp [parent?_eq, same] at next
    | succ index => exact Nat.lt_succ_of_le (before index parent (parent?_succ same index ▸ next))

theorem rooted_iff_outward : tree.Rooted ↔ tree.Outward := by
  constructor
  · intro rooted scope parent next
    cases scope with
    | zero => simp [parent?_eq, same] at next
    | succ index =>
        rw [parent?_succ same] at next
        obtain ⟨inside, -⟩ := List.getElem?_eq_some_iff.1 next
        obtain ⟨before, smaller, again⟩ :=
          rooted (index + 1) (Nat.succ_pos index) (by rw [scopes_length same]; omega)
        rw [parent?_succ same, next] at again
        exact Option.some.inj again ▸ smaller
  · intro outward scope inner inside
    obtain ⟨index, rfl⟩ := Nat.exists_eq_succ_of_ne_zero (Nat.ne_of_gt inner)
    rw [scopes_length same] at inside
    have next := (parent?_succ same index).trans
      (List.getElem?_eq_getElem (Nat.lt_of_succ_lt_succ inside))
    exact ⟨_, outward _ _ next, next⟩

end

/-! ## Searches -/

/-- A search ends without a symbol where no scope on the way outwards has the name. -/
inductive Misses (tree : ScopeTree) (name : String) (kind : SymbolKind) : Nat → Prop
  | last {scope : Nat} (missing : tree.get? scope name kind = none)
      (outermost : tree.parent? scope = none) : Misses tree name kind scope
  | outside {scope parent : Nat} (missing : tree.get? scope name kind = none)
      (next : tree.parent? scope = some parent) (further : Misses tree name kind parent) :
      Misses tree name kind scope

/-- A search from a scope outwards that comes to an end. -/
def Ends (tree : ScopeTree) (name : String) (kind : SymbolKind) (scope : Nat) : Prop :=
  (∃ symbol, tree.Finds name kind scope symbol) ∨ tree.Misses name kind scope

theorem Misses.not_finds {name : String} {kind : SymbolKind} {scope : Nat}
    (misses : tree.Misses name kind scope) (symbol : Nat) :
    ¬tree.Finds name kind scope symbol := by
  intro finds
  induction misses with
  | last missing outermost =>
      cases finds with
      | here found => simp [missing] at found
      | outside _ next => simp [outermost] at next
  | outside missing next _ ih =>
      cases finds with
      | here found => simp [missing] at found
      | outside _ again further =>
          obtain rfl := Option.some.inj (next.symm.trans again)
          exact ih further

/-- In an outward tree every search ends. -/
theorem Outward.ends (outward : tree.Outward) (name : String) (kind : SymbolKind) (scope : Nat) :
    tree.Ends name kind scope := by
  induction scope using Nat.strongRecOn with
  | ind scope ih =>
      cases found : tree.get? scope name kind with
      | some symbol => exact .inl ⟨symbol, .here found⟩
      | none =>
          cases next : tree.parent? scope with
          | none => exact .inr (.last found next)
          | some parent =>
              rcases ih parent (outward scope parent next) with ⟨symbol, finds⟩ | misses
              · exact .inl ⟨symbol, .outside found next finds⟩
              · exact .inr (.outside found next misses)

theorem lookup?_eq_none_iff (outward : tree.Outward) (name : String) (kind : SymbolKind)
    {scope : Nat} : tree.lookup? scope name kind = none ↔ tree.Misses name kind scope := by
  have finds (symbol : Nat) : tree.lookup? scope name kind = some symbol ↔
      tree.Finds name kind scope symbol := lookup?_eq_some_iff outward name kind
  constructor
  · intro none
    rcases outward.ends name kind scope with ⟨symbol, found⟩ | misses
    · simp [none, ← finds] at found
    · exact misses
  · intro misses
    refine Option.eq_none_iff_forall_not_mem.2 fun symbol found => ?_
    exact misses.not_finds symbol ((finds symbol).1 found)

/-- A name is found exactly if some scope on the way outwards has it. -/
theorem exists_finds_iff {name : String} {kind : SymbolKind} {scope : Nat} :
    (∃ symbol, tree.Finds name kind scope symbol) ↔
      ∃ outer, tree.Around scope outer ∧ (tree.get? outer name kind).isSome = true := by
  constructor
  · rintro ⟨symbol, finds⟩
    induction finds with
    | here found => exact ⟨_, .self _, by rw [found]; rfl⟩
    | outside _ next _ ih =>
        obtain ⟨outer, around, bound⟩ := ih
        exact ⟨outer, .outside next around, bound⟩
  · rintro ⟨outer, around, bound⟩
    induction around with
    | self scope =>
        obtain ⟨symbol, found⟩ := Option.isSome_iff_exists.1 bound
        exact ⟨symbol, .here found⟩
    | @outside scope parent outer next _ ih =>
        obtain ⟨symbol, finds⟩ := ih bound
        cases found : tree.get? scope name kind with
        | some nearer => exact ⟨nearer, .here found⟩
        | none => exact ⟨symbol, .outside found next finds⟩

/-! ## Trees of callers -/

/-- Calls that open every scope inside one that is there by then. -/
def OpensInside (calls : List Call) : Prop :=
  ∀ index parent : Nat, (calls.filterMap Call.opensIn)[index]? = some parent → parent ≤ index

/-- The scopes of a tree are inside earlier ones exactly if its callers opened each inside one that
was there.  Then every way outwards leads to the global scope, and every search ends as a lookup
says. -/
theorem ofCalls_rooted_ends (span : Span) (calls : List Call) :
    ((ofCalls span calls).Rooted ↔ OpensInside calls) ∧
      (OpensInside calls →
        (∀ scope < (ofCalls span calls).scopes.length,
          (ofCalls span calls).Around scope globalScope) ∧
        ∀ (name : String) (kind : SymbolKind) (scope : Nat),
          (ofCalls span calls).Ends name kind scope ∧
          (∀ symbol, (ofCalls span calls).lookup? scope name kind = some symbol ↔
            (ofCalls span calls).Finds name kind scope symbol) ∧
          ((ofCalls span calls).lookup? scope name kind = none ↔
            (ofCalls span calls).Misses name kind scope)) := by
  have parents := parents_ofCalls span calls
  have rooted := rooted_iff_outward parents
  have opened : (ofCalls span calls).Outward ↔ OpensInside calls := outward_iff parents
  refine ⟨rooted.trans opened, fun inside => ⟨fun scope bounded => ?_, fun name kind scope => ?_⟩⟩
  · exact (rooted.2 (opened.2 inside)).around_global bounded
  · have outward := opened.2 inside
    exact ⟨outward.ends name kind scope, fun symbol => lookup?_eq_some_iff outward name kind,
      lookup?_eq_none_iff outward name kind⟩

private def nested : List Call :=
  [.openScope 0 default, .bind 0 "x" .«variable» none, .openScope 1 default]

/-- A search from a scope that was opened inside another finds what is bound around both. -/
theorem nested_rooted_ends :
    OpensInside nested ∧ (ofCalls default nested).Around 2 globalScope ∧
      (ofCalls default nested).Finds "x" .«variable» 2 0 := by
  have inside : OpensInside nested := by
    intro index parent found
    match index with
    | 0 => exact Nat.le_of_eq (Option.some.inj found).symm
    | 1 => exact Nat.le_of_eq (Option.some.inj found).symm
    | index + 2 => cases found
  obtain ⟨around, searches⟩ := (ofCalls_rooted_ends default nested).2 inside
  exact ⟨inside, around 2 (by decide), ((searches "x" .«variable» 2).2.1 0).1 (by decide)⟩

private def circle : ScopeTree := ofCalls default [.openScope 1 default]

/-- A scope that is opened inside itself is not inside an earlier one, and a search from it for a
name that it lacks never ends. -/
theorem circle_endless :
    circle.parent? 1 = some 1 ∧ ¬circle.Rooted ∧ ¬circle.Ends "x" .«variable» 1 := by
  have next : circle.parent? 1 = some 1 := rfl
  have missing : circle.get? 1 "x" .«variable» = none := rfl
  refine ⟨next, fun rooted => ?_, ?_⟩
  · obtain ⟨parent, before, other⟩ := rooted 1 (by decide) (by decide)
    obtain rfl := Option.some.inj (next.symm.trans other)
    exact Nat.lt_irrefl 1 before
  · rintro (⟨symbol, finds⟩ | misses)
    · generalize start : 1 = scope at finds
      induction finds with
      | here found => simp [← start, missing] at found
      | outside _ further _ ih =>
          subst start
          exact ih (Option.some.inj (next.symm.trans further))
    · generalize start : 1 = scope at misses
      induction misses with
      | last _ outermost => simp [← start, next] at outermost
      | outside _ further _ ih =>
          subst start
          exact ih (Option.some.inj (next.symm.trans further))

end NovelScript.ScopeTree
