import Mathlib.Data.List.Nodup
import NovelScript.Proofs.LabelScopes

/-!
# Histories of scope trees

Whatever calls a tree has been through, and with whatever indices, its scopes and symbols stand
where they were first put, and the names of the scopes lead to the symbols that stand in them.
-/

namespace NovelScript

/-! ## What stays -/

/-- Each entry of the first list has its successor in the second one, in the same place. -/
def KeepsEach {α : Type} (kept : α → α → Prop) (before after : List α) : Prop :=
  ∀ (index : Nat) (entry : α), before[index]? = some entry →
    ∃ successor, after[index]? = some successor ∧ kept entry successor

namespace KeepsEach

variable {α : Type} {kept : α → α → Prop} {first second third : List α}

theorem refl (same : ∀ entry, kept entry entry) (entries : List α) :
    KeepsEach kept entries entries :=
  fun _ entry found => ⟨entry, found, same entry⟩

theorem trans (compose : ∀ {one two three}, kept one two → kept two three → kept one three)
    (one : KeepsEach kept first second) (two : KeepsEach kept second third) :
    KeepsEach kept first third := by
  intro index entry found
  obtain ⟨middle, there, sooner⟩ := one index entry found
  obtain ⟨last, finally_, later⟩ := two index middle there
  exact ⟨last, finally_, compose sooner later⟩

theorem append (same : ∀ entry, kept entry entry) (entries more : List α) :
    KeepsEach kept entries (entries ++ more) := by
  intro index entry found
  obtain ⟨inside, -⟩ := List.getElem?_eq_some_iff.1 found
  exact ⟨entry, by rw [List.getElem?_append_left inside, found], same entry⟩

theorem modify (same : ∀ entry, kept entry entry) {entries : List α} {place : Nat}
    {change : α → α} (changed : ∀ entry, entries[place]? = some entry → kept entry (change entry)) :
    KeepsEach kept entries (entries.modify place change) := by
  intro index entry found
  rw [List.getElem?_modify, found]
  by_cases here : place = index
  · subst here
    exact ⟨change entry, by simp, changed entry found⟩
  · exact ⟨entry, by simp [here], same entry⟩

end KeepsEach

/-- The same scope at a later time: names have come to it at most. -/
structure Scope.Keeps (before after : Scope) : Prop where
  parent : after.parent = before.parent
  span : after.span = before.span
  bindings : ∀ kind, before.bindings kind <+: after.bindings kind

namespace Scope.Keeps

theorem refl (scope : Scope) : scope.Keeps scope := ⟨rfl, rfl, fun _ => List.prefix_rfl⟩

theorem trans {first second third : Scope} (one : first.Keeps second) (two : second.Keeps third) :
    first.Keeps third where
  parent := two.parent.trans one.parent
  span := two.span.trans one.span
  bindings kind := (one.bindings kind).trans (two.bindings kind)

theorem insert (scope : Scope) (name : String) (kind : SymbolKind) (symbol : Nat) :
    scope.Keeps (scope.insert name kind symbol) where
  parent := scope.insert_parent name kind symbol
  span := scope.insert_span name kind symbol
  bindings other := by
    unfold Scope.insert Scope.bindings
    cases kind.isFunction <;> cases other.isFunction <;> simp

end Scope.Keeps

/-- The same symbol at a later time: it may have been defined in between, if it was not before, and
used. -/
structure Symbol.Keeps (before after : Symbol) : Prop where
  name : after.name = before.name
  kind : after.kind = before.kind
  scope : after.scope = before.scope
  definition : ∀ span, before.definition = some span → after.definition = some span
  references : before.references <+: after.references

namespace Symbol.Keeps

theorem refl (symbol : Symbol) : symbol.Keeps symbol :=
  ⟨rfl, rfl, rfl, fun _ defined => defined, List.prefix_rfl⟩

theorem trans {first second third : Symbol} (one : first.Keeps second)
    (two : second.Keeps third) : first.Keeps third where
  name := two.name.trans one.name
  kind := two.kind.trans one.kind
  scope := two.scope.trans one.scope
  definition span defined := two.definition span (one.definition span defined)
  references := one.references.trans two.references

end Symbol.Keeps

namespace ScopeTree

variable {tree : ScopeTree}

/-- What a call can make of a tree. -/
inductive Becomes (tree : ScopeTree) : ScopeTree → Prop
  | same : Becomes tree tree
  | opened (parent : Nat) (span : Span) : Becomes tree (tree.openScope parent span).2
  | bound {symbol : Symbol} (inside : symbol.scope < tree.scopes.length)
      (free : tree.at? symbol.slot = none) : Becomes tree (tree.extend symbol)
  | defined {index : Nat} {symbol : Symbol} (found : tree.symbols[index]? = some symbol)
      (undefined : symbol.definition = none) (span : Span) :
      Becomes tree (tree.amend index ({ · with definition := some span }))
  | used (index : Nat) (span : Span) : Becomes tree (tree.addReference index span)

theorem apply_becomes (tree : ScopeTree) (call : Call) : tree.Becomes (tree.apply call) := by
  cases call with
  | openScope parent span => exact .opened parent span
  | bind scope name kind definition =>
      rcases tree.bind_cases scope name kind definition with
        ⟨-, equal⟩ | ⟨index, -, equal⟩ | ⟨inside, free, equal⟩ <;> rw [apply, equal]
      · exact .same
      · exact .same
      · exact .bound inside free
  | claimBuiltin index span =>
      rcases tree.claimBuiltin_cases index span with
        ⟨symbol, found, undefined, equal⟩ | ⟨-, equal⟩ <;> rw [apply, equal]
      · exact .defined found undefined span
      · exact .same
  | addReference index span => exact .used index span

/-- The same tree at a later time: nothing has gone or changed its place. -/
structure Keeps (before after : ScopeTree) : Prop where
  scopes : KeepsEach Scope.Keeps before.scopes after.scopes
  symbols : KeepsEach Symbol.Keeps before.symbols after.symbols

namespace Keeps

theorem refl (tree : ScopeTree) : tree.Keeps tree := ⟨.refl .refl _, .refl .refl _⟩

theorem trans {first second third : ScopeTree} (one : first.Keeps second)
    (two : second.Keeps third) : first.Keeps third :=
  ⟨one.scopes.trans .trans two.scopes, one.symbols.trans .trans two.symbols⟩

/-- The step of a call. -/
theorem of_becomes {after : ScopeTree} (becomes : tree.Becomes after) : tree.Keeps after := by
  cases becomes with
  | same => exact refl tree
  | opened parent span => exact ⟨.append .refl _ _, .refl .refl _⟩
  | bound inside free =>
      exact ⟨.modify .refl fun scope _ => .insert scope .., .append .refl _ _⟩
  | defined found undefined span =>
      -- A definition is put where there was none, so that none is lost.
      refine ⟨.refl .refl _, .modify .refl fun other again => ?_⟩
      obtain rfl := Option.some.inj (found.symm.trans again)
      exact ⟨rfl, rfl, rfl, by simp [undefined], List.prefix_rfl⟩
  | used index span =>
      exact ⟨.refl .refl _, .modify .refl fun _ _ =>
        ⟨rfl, rfl, rfl, fun _ defined => defined, List.prefix_append ..⟩⟩

/-- The run over any further calls. -/
theorem foldl (tree : ScopeTree) (calls : List Call) : tree.Keeps (calls.foldl .apply tree) :=
  List.foldlRecOn calls _ (refl tree) fun later kept call _ =>
    kept.trans (of_becomes (apply_becomes later call))

end Keeps

/-! ## Numbers of scopes -/

/-- The number that a call answers for the scope it opens. -/
def issue? (tree : ScopeTree) : Call → Option Nat
  | .openScope parent span => some (tree.openScope parent span).1
  | .bind .. | .claimBuiltin .. | .addReference .. => none

/-- The numbers that calls answer, one after another, for the scopes they open. -/
def issued (tree : ScopeTree) : List Call → List Nat
  | [] => []
  | call :: rest => (tree.issue? call).toList ++ (tree.apply call).issued rest

/-- The step of a call: the number that it answers is that of the place behind all scopes. -/
theorem range_issue? (tree : ScopeTree) (call : Call) :
    List.range tree.scopes.length ++ (tree.issue? call).toList =
      List.range (tree.apply call).scopes.length := by
  have length := congrArg List.length (tree.parents_apply call)
  simp only [parents_length, List.length_append, List.length_map] at length
  rw [length]
  cases call with
  | openScope parent span => exact List.range_succ.symm
  | bind scope name kind definition => exact List.append_nil _
  | claimBuiltin symbol definition => exact List.append_nil _
  | addReference symbol span => exact List.append_nil _

/-- The run over all calls. -/
theorem range_issued (tree : ScopeTree) (calls : List Call) :
    List.range tree.scopes.length ++ tree.issued calls =
      List.range (calls.foldl apply tree).scopes.length := by
  induction calls generalizing tree with
  | nil => exact List.append_nil _
  | cons call rest ih =>
      rw [issued, ← List.append_assoc, range_issue?, ih, List.foldl_cons]

/-! ## Names and symbols -/

namespace Consistent

/-- The step of a call. -/
theorem of_becomes (consistent : tree.Consistent) {after : ScopeTree}
    (becomes : tree.Becomes after) : after.Consistent := by
  cases becomes with
  | same => exact consistent
  | opened parent span => exact consistent.openScope parent span
  | bound inside free => exact consistent.extend inside free
  | @defined index => exact consistent.amend index fun _ => rfl
  | used index span => exact consistent.amend index fun _ => rfl

/-- The run over all calls. -/
theorem ofCalls (span : Span) (calls : List Call) : (ScopeTree.ofCalls span calls).Consistent :=
  List.foldlRecOn calls _ (.ofSpan span) fun tree consistent call _ =>
    consistent.of_becomes (apply_becomes tree call)

/-- A scope has a symbol for a name exactly if the symbol says so. -/
theorem get?_eq_some_iff (consistent : tree.Consistent) {scope index : Nat} {name : String}
    {kind : SymbolKind} :
    tree.get? scope name kind = some index ↔
      ∃ symbol, tree.symbols[index]? = some symbol ∧ symbol.scope = scope ∧
        symbol.name = name ∧ symbol.kind.isFunction = kind.isFunction := by
  rw [get?_eq, consistent, Option.map_eq_some_iff]
  simp only [Symbol.slot, Slot.mk.injEq]

/-- A symbol stands in one slot and in no other. -/
theorem existsUnique_slot (consistent : tree.Consistent) {index : Nat}
    (inside : index < tree.symbols.length) : ∃! slot, tree.at? slot = some index := by
  have stands (slot : Slot) : tree.at? slot = some index ↔ tree.symbols[index].slot = slot := by
    rw [consistent, List.getElem?_eq_getElem inside, Option.map_some, Option.some.injEq]
  exact ⟨tree.symbols[index].slot, (stands _).2 rfl, fun slot found => ((stands slot).1 found).symm⟩

/-- No two symbols stand in one slot. -/
theorem nodup_slots (consistent : tree.Consistent) : (tree.symbols.map Symbol.slot).Nodup := by
  refine List.nodup_iff_count_le_one.2 fun slot => ?_
  rw [List.count, List.countP_map, List.countP_eq_length_filter]
  refine Nat.le_trans (Nat.le_of_eq (congrArg List.length (consistent.filter_slot slot))) ?_
  cases tree.symbolAt slot <;> simp

end Consistent

theorem Distinct.ofCalls (span : Span) (calls : List Call) : (ofCalls span calls).Distinct := by
  refine List.foldlRecOn calls _ (fun scope member kind => ?_) fun _ distinct call _ =>
    distinct.apply call
  rw [List.mem_singleton.1 member]
  cases kind <;> exact .nil

/-- A name that is taken, or whose scope does not exist, is not bound. -/
theorem bind_taken {scope : Nat} {name : String} {kind : SymbolKind} {definition : Option Span}
    {index : Nat} (taken : (tree.bind scope name kind definition).1 = .taken index) :
    (tree.bind scope name kind definition).2 = tree := by
  rcases tree.bind_cases scope name kind definition with
    ⟨-, equal⟩ | ⟨other, -, equal⟩ | ⟨-, -, equal⟩ <;> rw [equal] at taken ⊢
  cases taken

/-! ## Histories -/

/-- Scopes have the numbers that were answered when they were opened, and stand inside those that
were named.  Their names and the symbols are in step: a scope has a symbol for a name exactly if the
symbol says so.  No call takes anything away again, and a name that could not be bound changes
nothing. -/
theorem ofCalls_consistent (span : Span) (calls : List Call) :
    let tree := ofCalls span calls
    (globalScope :: (ScopeTree.ofSpan span).issued calls = List.range tree.scopes.length ∧
      tree.parents = none :: (calls.filterMap Call.opensIn).map some ∧
      tree.spans = span :: calls.filterMap Call.span?) ∧
    (∀ (scope index : Nat) (name : String) (kind : SymbolKind),
      tree.get? scope name kind = some index ↔
        ∃ symbol, tree.symbols[index]? = some symbol ∧ symbol.scope = scope ∧
          symbol.name = name ∧ symbol.kind.isFunction = kind.isFunction) ∧
    ((∀ index < tree.symbols.length, ∃! slot, tree.at? slot = some index) ∧
      (tree.symbols.map Symbol.slot).Nodup ∧ tree.Distinct) ∧
    (∀ (scope : Nat) (name : String) (kind : SymbolKind) (definition : Option Span) (index : Nat),
      (tree.bind scope name kind definition).1 = .taken index →
        (tree.bind scope name kind definition).2 = tree) ∧
    ∀ more : List Call, tree.Keeps (ofCalls span (calls ++ more)) := by
  intro tree
  have consistent : tree.Consistent := .ofCalls span calls
  have grows : Grows (calls.filterMap Call.span?) (.ofSpan span) tree := ⟨calls, rfl, rfl⟩
  refine ⟨⟨?_, parents_ofCalls span calls, grows.spans⟩,
    fun _ _ _ _ => consistent.get?_eq_some_iff,
    ⟨fun _ inside => consistent.existsUnique_slot inside, consistent.nodup_slots,
      .ofCalls span calls⟩,
    fun _ _ _ _ _ taken => bind_taken taken, fun more => ?_⟩
  · exact range_issued (.ofSpan span) calls
  · rw [ofCalls, List.foldl_append]
    exact Keeps.foldl tree more

end ScopeTree

end NovelScript
