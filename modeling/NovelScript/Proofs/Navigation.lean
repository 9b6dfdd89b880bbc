import Mathlib.Data.List.Pairwise
import NovelScript.Proofs.NameOrder
import NovelScript.Proofs.Resolutions
import NovelScript.Analysis

/-!
# Navigation

Each name of a script is the definition or a reference of at most one symbol, and no two names
touch.  So a position on a name leads to that name's symbol, and from there to every other place of
the symbol and back.
-/

namespace NovelScript

/-! ## Symbols that do not touch -/

namespace ScopeTree

/-- No two places where symbols of the tree are defined or used touch. -/
def Navigable (tree : ScopeTree) : Prop :=
  (tree.symbols.flatMap Symbol.occurrences).Pairwise Span.Apart

namespace Navigable

variable {tree : ScopeTree} {position : Position}

/-- At most one symbol is at a position. -/
theorem touches_unique (navigable : tree.Navigable) {index other : Nat} {one two : Symbol}
    (first : tree.symbols[index]? = some one) (second : tree.symbols[other]? = some two)
    (onOne : one.touches position = true) (onTwo : two.touches position = true) :
    index = other := by
  obtain ⟨-, across⟩ := List.pairwise_flatMap.1 navigable
  have before {index other : Nat} {one two : Symbol}
      (first : tree.symbols[index]? = some one) (second : tree.symbols[other]? = some two)
      (onOne : one.touches position = true) (onTwo : two.touches position = true) :
      ¬ index < other := by
    intro smaller
    obtain ⟨inside, rfl⟩ := List.getElem?_eq_some_iff.1 first
    obtain ⟨inside', rfl⟩ := List.getElem?_eq_some_iff.1 second
    obtain ⟨here, among, on⟩ := List.any_eq_true.1 onOne
    obtain ⟨there, among', on'⟩ := List.any_eq_true.1 onTwo
    have apart := List.pairwise_iff_getElem.1 across index other inside inside' smaller
    exact (apart here among there among').not_both on on'
  have := before first second onOne onTwo
  have := before second first onTwo onOne
  omega

theorem symbolAt?_touches (navigable : tree.Navigable) {index : Nat} {symbol : Symbol}
    (found : tree.symbols[index]? = some symbol) (on : symbol.touches position = true) :
    tree.symbolAt? position = some symbol := by
  obtain ⟨inside, equal⟩ := List.getElem?_eq_some_iff.1 found
  refine List.find?_eq_some_iff_getElem.2 ⟨on, index, inside, equal, fun other smaller => ?_⟩
  rw [Bool.not_eq_true', ← Bool.not_eq_true]
  intro touched
  have there := List.getElem?_eq_getElem (Nat.lt_trans smaller inside)
  have same := navigable.touches_unique there found touched on
  omega

end Navigable

end ScopeTree

namespace Resolution

private theorem apart_of_ne {items : List α} {span : α → Span}
    (apart : (items.map span).Pairwise Span.Apart) {one two : α} (first : one ∈ items)
    (second : two ∈ items) (other : one ≠ two) : (span one).Apart (span two) := by
  have : Std.Symm fun one two => (span one).Apart (span two) := ⟨fun _ _ => Or.symm⟩
  exact (List.pairwise_map.1 apart).forall first second other

/-- How a name of a document comes to a symbol of a tree. -/
inductive Leads (document : Document) (tree : ScopeTree) (index : Nat) : Span → Prop
  | definition {definition : Definition} (member : definition ∈ document.definitions)
      (bound : tree.at? definition.slot = some index) : Leads document tree index definition.span
  | usage {usage : Usage} (member : usage ∈ document.usages)
      (meant : usage.lookup? tree = some index) : Leads document tree index usage.span

namespace Leads

variable {document : Document} {tree : ScopeTree} {index other : Nat} {one two : Span}

theorem mem_names (leads : Leads document tree index one) :
    one ∈ Statement.namesOfAll document.statements := by
  refine document.mentions.subset (List.mem_append.2 ?_)
  cases leads with
  | definition member bound => exact .inl (List.mem_map_of_mem member)
  | usage member meant => exact .inr (List.mem_map_of_mem member)

/-- Definitions of two symbols stand in two slots, and no use means two symbols. -/
theorem apart (first : Leads document tree index one) (second : Leads document tree other two)
    (names : (document.definitions.map Definition.span ++
      document.usages.map Usage.span).Pairwise Span.Apart)
    (different : index ≠ other) : one.Apart two := by
  obtain ⟨definitions, usages, cross⟩ := List.pairwise_append.1 names
  have mixed {definition : Definition} {usage : Usage}
      (defined : definition ∈ document.definitions) (used : usage ∈ document.usages) :
      definition.span.Apart usage.span :=
    cross _ (List.mem_map_of_mem defined) _ (List.mem_map_of_mem used)
  cases first with
  | definition member bound =>
      cases second with
      | definition member' bound' =>
          refine apart_of_ne definitions member member' fun same => different ?_
          exact Option.some.inj (bound.symm.trans (same ▸ bound'))
      | usage member' _ => exact mixed member member'
  | usage member meant =>
      cases second with
      | definition member' _ => exact (mixed member' member).symm
      | usage member' meant' =>
          refine apart_of_ne usages member member' fun same => different ?_
          exact Option.some.inj (meant.symm.trans (same ▸ meant'))

end Leads

variable {document : Document} {builtins : List String} {reportUnresolved : Bool}

theorem leads_of_mem_occurrences {index : Nat} {symbol : Symbol}
    (found : (ofDocument document builtins reportUnresolved).tree.symbols[index]? = some symbol)
    {span : Span} (member : span ∈ symbol.occurrences) :
    Leads document (ofDocument document builtins reportUnresolved).tree index span := by
  rcases List.mem_append.1 member with defined | referred
  · obtain ⟨definition, among, rfl, bound⟩ :=
      ofDocument_definition found (Option.mem_toList.1 defined)
    exact .definition among bound
  · obtain ⟨usage, among, rfl⟩ := List.mem_map.1 ((ofDocument_references found).1.subset referred)
    obtain ⟨used, meant⟩ := List.mem_filter.1 among
    exact .usage used (eq_of_beq meant)

/-- Names that do not touch lead to symbols that do not touch. -/
theorem ofDocument_navigable (names : (document.definitions.map Definition.span ++
      document.usages.map Usage.span).Pairwise Span.Apart) :
    (ofDocument document builtins reportUnresolved).tree.Navigable := by
  obtain ⟨-, usages, cross⟩ := List.pairwise_append.1 names
  refine List.pairwise_flatMap.2 ⟨fun symbol member => ?_, ?_⟩
  · obtain ⟨index, found⟩ := List.mem_iff_getElem?.1 member
    have references := (ofDocument_references found).1
    refine List.pairwise_append.2 ⟨?_, ?_, fun one defined two referred => ?_⟩
    · cases symbol.definition <;> simp
    · have symmetric {one two : Span} (apart : one.Apart two) : two.Apart one := apart.symm
      rw [references.pairwise_iff symmetric]
      exact usages.sublist (List.filter_sublist.map _)
    · obtain ⟨definition, among, rfl, -⟩ :=
        ofDocument_definition found (Option.mem_toList.1 defined)
      exact cross _ (List.mem_map_of_mem among) _
        ((List.filter_sublist.map _).subset (references.subset referred))
  · refine List.pairwise_iff_getElem.2 fun index other inside inside' smaller => ?_
    intro one member two member'
    exact (leads_of_mem_occurrences (List.getElem?_eq_getElem inside) member).apart
      (leads_of_mem_occurrences (List.getElem?_eq_getElem inside') member') names (by omega)

end Resolution

namespace Analysis

theorem ofText_navigable (source : List Char) (options : AnalysisOptions) :
    (ofText source options).symbols.Navigable := by
  have symmetric {one two : Span} (apart : one.Apart two) : two.Apart one := apart.symm
  exact Resolution.ofDocument_navigable
    (((Document.ofText source).1.mentions.pairwise_iff symmetric).2
      (Document.names_apart source).1)

/-- What an editor is told at a position of a symbol. -/
structure Answers (analysis : Analysis) (index : Nat) (symbol : Symbol) (position : Position) :
    Prop where
  only : ∀ (other : Nat) (touched : Symbol), analysis.symbols.symbols[other]? = some touched →
    touched.touches position = true → other = index
  symbolAt : analysis.symbolAt? position = some symbol
  definitionAt : analysis.definitionAt? position = symbol.definition
  references : analysis.referencesAt position false = symbol.references
  occurrences : analysis.referencesAt position true = symbol.definition.toList ++ symbol.references

theorem answers_of_navigable {analysis : Analysis} (navigable : analysis.symbols.Navigable)
    {index : Nat} {symbol : Symbol} (found : analysis.symbols.symbols[index]? = some symbol)
    {span : Span} (member : span ∈ symbol.occurrences) {position : Position}
    (on : span.contains position = true) : analysis.Answers index symbol position := by
  have touched : symbol.touches position = true := List.any_eq_true.2 ⟨span, member, on⟩
  have at_ : analysis.symbolAt? position = some symbol := navigable.symbolAt?_touches found touched
  refine ⟨fun other two there onTwo => navigable.touches_unique there found onTwo touched, at_,
    ?_, ?_, ?_⟩
  · rw [definitionAt?, at_, Option.bind_some]
  · simp [referencesAt, at_]
  · simp [referencesAt, at_, Symbol.occurrences]

/-- No two places of symbols touch, so that at any position of any place of a symbol an editor is
told about this symbol and no other.  From a reference it gets to the definition, and from there
back to the reference. -/
theorem ofText_navigation (source : List Char) (options : AnalysisOptions) :
    (ofText source options).symbols.Navigable ∧
      (∀ (index : Nat) (symbol : Symbol),
        (ofText source options).symbols.symbols[index]? = some symbol →
          ∀ span ∈ symbol.occurrences, span.start.offset ≤ span.stop.offset ∧
            ∀ position : Position, span.contains position = true →
              (ofText source options).Answers index symbol position) ∧
      ∀ symbol ∈ (ofText source options).symbols.symbols, ∀ reference ∈ symbol.references,
        ∀ position : Position, reference.contains position = true →
          ∀ definition ∈ (ofText source options).definitionAt? position,
            reference ∈ (ofText source options).referencesAt definition.start false := by
  have navigable := ofText_navigable source options
  have ordered {index : Nat} {symbol : Symbol}
      (found : (ofText source options).symbols.symbols[index]? = some symbol) {span : Span}
      (member : span ∈ symbol.occurrences) : span.start.offset ≤ span.stop.offset :=
    (Document.names_apart source).2 span
      (Resolution.leads_of_mem_occurrences found member).mem_names
  refine ⟨navigable, fun index symbol found span member =>
    ⟨ordered found member, fun position on => answers_of_navigable navigable found member on⟩, ?_⟩
  intro symbol among reference referred position on definition defined
  obtain ⟨index, found⟩ := List.mem_iff_getElem?.1 among
  have here := answers_of_navigable navigable found (List.mem_append_right _ referred) on
  rw [here.definitionAt] at defined
  have member : definition ∈ symbol.occurrences :=
    List.mem_append_left _ (Option.mem_toList.2 defined)
  have start : definition.contains definition.start = true := by
    simpa [Span.contains] using ordered found member
  rw [(answers_of_navigable navigable found member start).references]
  exact referred

private def told : List Char := "label a:\n  jump a\n".toList

/-- The cursor stands right behind the target of the jump. -/
theorem told_navigation : ∃ (index : Nat) (symbol : Symbol) (reference definition : Span),
    (ofText told {}).symbols.symbols[index]? = some symbol ∧ reference ∈ symbol.references ∧
      reference.contains ⟨1, 8, 17⟩ = true ∧
      (ofText told {}).Answers index symbol ⟨1, 8, 17⟩ ∧
      (ofText told {}).definitionAt? ⟨1, 8, 17⟩ = some definition ∧
      reference ∈ (ofText told {}).referencesAt definition.start false := by
  have found : ((ofText told {}).symbols.symbols[19]?).any (fun symbol =>
      symbol.definition.isSome && symbol.references.any (·.contains ⟨1, 8, 17⟩)) = true := by
    decide +kernel
  obtain ⟨symbol, at_, both⟩ := (Option.any_eq_true ..).1 found
  obtain ⟨defined, referred⟩ := Bool.and_eq_true_iff.1 both
  obtain ⟨reference, member, on⟩ := List.any_eq_true.1 referred
  obtain ⟨definition, defined⟩ := Option.isSome_iff_exists.1 defined
  obtain ⟨-, answers, returns⟩ := ofText_navigation told {}
  have here := (answers 19 symbol at_ reference (List.mem_append_right _ member)).2 _ on
  have leads := here.definitionAt.trans defined
  exact ⟨19, symbol, reference, definition, at_, member, on, here, leads,
    returns symbol (List.mem_of_getElem? at_) reference member _ on definition leads⟩

end Analysis

end NovelScript
