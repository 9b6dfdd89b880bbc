import NovelScript.Proofs.Position
import NovelScript.Proofs.Records

/-!
# Resolutions

When the walk is over, every use goes to the symbol that the finished tree has for it, or else among
the errors.  References change no name and no scope, so it makes no difference to what a use means
when it is settled.  Main statements: what the symbols and errors are, for the definitions and the
uses of a document.
-/

namespace NovelScript

namespace ScopeTree

/-- The tree with more references at its symbols. -/
def refer (tree : ScopeTree) (added : Nat → List Span) : ScopeTree :=
  { tree with
    symbols := tree.symbols.mapIdx fun index symbol =>
      { symbol with references := symbol.references ++ added index } }

variable {tree : ScopeTree} {added : Nat → List Span}

theorem getElem?_refer (index : Nat) :
    (tree.refer added).symbols[index]? = (tree.symbols[index]?).map fun symbol =>
      { symbol with references := symbol.references ++ added index } := by
  simp [refer]

theorem refer_nil (tree : ScopeTree) : (tree.refer fun _ => []) = tree := by
  have same : (tree.refer fun _ => []).symbols = tree.symbols := by
    refine List.ext_getElem? fun index => ?_
    rw [getElem?_refer]
    cases tree.symbols[index]? <;> simp
  exact congrArg (ScopeTree.mk tree.scopes) same

theorem refer_refer (tree : ScopeTree) (added further : Nat → List Span) :
    (tree.refer added).refer further = tree.refer fun index => added index ++ further index := by
  have same : ((tree.refer added).refer further).symbols =
      (tree.refer fun index => added index ++ further index).symbols := by
    refine List.ext_getElem? fun index => ?_
    rw [getElem?_refer, getElem?_refer, getElem?_refer]
    cases tree.symbols[index]? <;> simp
  exact congrArg (ScopeTree.mk tree.scopes) same

theorem addReference_eq (tree : ScopeTree) (index : Nat) (span : Span) :
    tree.addReference index span =
      tree.refer fun other => if other = index then [span] else [] := by
  have same : (tree.addReference index span).symbols =
      (tree.refer fun other => if other = index then [span] else []).symbols := by
    refine List.ext_getElem? fun other => ?_
    rw [getElem?_refer]
    simp only [addReference, List.getElem?_modify]
    by_cases here : other = index
    · simp [here]
    · cases tree.symbols[other]? <;> simp [here, Ne.symm here]
  exact congrArg (ScopeTree.mk tree.scopes) same

/-- References leave every slot its symbol. -/
theorem Consistent.refer (consistent : tree.Consistent) (added : Nat → List Span) :
    (tree.refer added).Consistent := by
  intro slot index
  rw [getElem?_refer, Option.map_map]
  exact consistent slot index

theorem definition_refer (slot : Slot) :
    ((tree.refer added).symbolAt slot).map Symbol.definition =
      (tree.symbolAt slot).map Symbol.definition := by
  have same : (tree.refer added).at? slot = tree.at? slot := rfl
  unfold symbolAt
  rw [same]
  cases tree.at? slot with
  | none => rfl
  | some index =>
      simp only [Option.bind_some, getElem?_refer, Option.map_map]
      rfl

end ScopeTree

namespace Usage

/-- What a use means in a tree: the symbol of its full name, or, if the name is dotted and found
nowhere, the symbol of its first segment. -/
inductive Means (tree : ScopeTree) (usage : Usage) (symbol : Nat) : Prop
  | whole (finds : tree.Finds usage.name usage.kind usage.scope symbol)
  | segment (isVariable : usage.kind = .«variable») (dotted : '.' ∈ usage.name.toList)
      (missing : ∀ other, ¬ tree.Finds usage.name usage.kind usage.scope other)
      (finds : tree.Finds (root usage.name) usage.kind usage.scope symbol)

private theorem root_ne_iff (name : String) : root name ≠ name ↔ '.' ∈ name.toList := by
  have whole : root name = name ↔ '.' ∉ name.toList := by
    unfold root
    constructor
    · intro same member
      rw [← congrArg String.toList same, String.toList_ofList] at member
      simpa using List.all_eq_true.1 List.all_takeWhile _ member
    · intro absent
      have plain : ∀ character ∈ name.toList, (character != '.') = true := by
        intro character member
        simpa using fun same : character = '.' => absent (same ▸ member)
      have all : (name.toList ++ []).takeWhile (· != '.') = name.toList ++ [] :=
        List.takeWhile_append_of_pos plain
      rw [List.append_nil] at all
      rw [all, String.ofList_toList]
  grind

variable {tree : ScopeTree} {usage : Usage}

theorem lookup?_eq_some_iff (outward : tree.Outward) {symbol : Nat} :
    usage.lookup? tree = some symbol ↔ usage.Means tree symbol := by
  have whole (symbol : Nat) : tree.lookup? usage.scope usage.name usage.kind = some symbol ↔
      tree.Finds usage.name usage.kind usage.scope symbol :=
    ScopeTree.lookup?_eq_some_iff outward usage.name usage.kind
  unfold lookup?
  cases found : tree.lookup? usage.scope usage.name usage.kind with
  | some other =>
      have finds := (whole other).1 found
      constructor
      · rintro ⟨⟩
        exact .whole finds
      · rintro (again | ⟨-, -, missing, -⟩)
        · exact found.symm.trans ((whole symbol).2 again)
        · exact absurd finds (missing other)
  | none =>
      have missing (other : Nat) : ¬ tree.Finds usage.name usage.kind usage.scope other := by
        rw [← whole, found]
        simp
      simp only [root_ne_iff]
      split
      · next dotted =>
          rw [ScopeTree.lookup?_eq_some_iff outward]
          constructor
          · exact .segment dotted.1 dotted.2 missing
          · rintro (finds | ⟨-, -, -, finds⟩)
            · exact absurd finds (missing symbol)
            · exact finds
      · next plain =>
          simp only [reduceCtorEq, false_iff]
          rintro (finds | ⟨isVariable, dotted, -, -⟩)
          · exact missing symbol finds
          · exact plain ⟨isVariable, dotted⟩

theorem lookup?_congr {other : ScopeTree} (same : tree.scopes = other.scopes) :
    usage.lookup? tree = usage.lookup? other := by
  unfold lookup?
  rw [ScopeTree.lookup?_congr same, ScopeTree.lookup?_congr same]

/-- The places of those uses that mean one symbol. -/
def places (tree : ScopeTree) (usages : List Usage) (symbol : Nat) : List Span :=
  (usages.filter (·.lookup? tree == some symbol)).map Usage.span

def unresolved (usage : Usage) : ResolveError :=
  .unresolvedReference usage.name usage.kind usage.span

/-- The errors for those uses that mean nothing, if such errors are wanted. -/
def unresolvedAmong (tree : ScopeTree) (reportUnresolved : Bool) (usages : List Usage) :
    List ResolveError :=
  if reportUnresolved then (usages.filter (·.lookup? tree == none)).map unresolved else []

theorem places_append (tree : ScopeTree) (first second : List Usage) (symbol : Nat) :
    places tree (first ++ second) symbol =
      places tree first symbol ++ places tree second symbol := by
  rw [places, List.filter_append, List.map_append, places, places]

theorem places_congr {other : ScopeTree} (same : tree.scopes = other.scopes) :
    places tree = places other := by
  funext usages symbol
  unfold places
  simp only [lookup?_congr same]

theorem unresolvedAmong_append (tree : ScopeTree) (reportUnresolved : Bool)
    (first second : List Usage) :
    unresolvedAmong tree reportUnresolved (first ++ second) =
      unresolvedAmong tree reportUnresolved first ++
        unresolvedAmong tree reportUnresolved second := by
  cases reportUnresolved
  · rfl
  · simp [unresolvedAmong]

theorem unresolvedAmong_perm {first second : List Usage} (perm : first.Perm second)
    (reportUnresolved : Bool) :
    (unresolvedAmong tree reportUnresolved first).Perm
      (unresolvedAmong tree reportUnresolved second) := by
  unfold unresolvedAmong
  split
  · exact (perm.filter _).map _
  · exact .nil

theorem unresolvedAmong_congr {other : ScopeTree} (same : tree.scopes = other.scopes) :
    unresolvedAmong tree = unresolvedAmong other := by
  funext reportUnresolved usages
  unfold unresolvedAmong
  simp only [lookup?_congr same]

end Usage

namespace Resolution

/-- The step of a use. -/
private theorem settle_eq (reportUnresolved : Bool) (tree : ScopeTree)
    (errors : List ResolveError) (usage : Usage) :
    settle reportUnresolved ⟨tree, errors⟩ usage =
      ⟨tree.refer (Usage.places tree [usage]),
        errors ++ Usage.unresolvedAmong tree reportUnresolved [usage]⟩ := by
  unfold settle
  cases found : usage.lookup? tree with
  | some symbol =>
      have places : Usage.places tree [usage] =
          fun other => if other = symbol then [usage.span] else [] := by
        funext other
        by_cases same : other = symbol
        · simp [Usage.places, found, same]
        · simp [Usage.places, found, same, Ne.symm same]
      simp [places, ScopeTree.addReference_eq, Usage.unresolvedAmong, found]
  | none =>
      have places : Usage.places tree [usage] = fun _ => [] := by
        funext other
        simp [Usage.places, found]
      rw [places, ScopeTree.refer_nil]
      cases reportUnresolved <;> simp [Usage.unresolvedAmong, found, Usage.unresolved]

/-- The run over a list of uses: each is settled by the tree as it was before them all. -/
private theorem settleAll_eq (reportUnresolved : Bool) (usages : List Usage) (tree : ScopeTree)
    (errors : List ResolveError) :
    usages.foldl (settle reportUnresolved) ⟨tree, errors⟩ =
      ⟨tree.refer (Usage.places tree usages),
        errors ++ Usage.unresolvedAmong tree reportUnresolved usages⟩ := by
  induction usages generalizing tree errors with
  | nil =>
      have places : Usage.places tree [] = fun _ => [] := rfl
      simp [places, ScopeTree.refer_nil, Usage.unresolvedAmong]
  | cons usage rest ih =>
      -- The use in front changes references only, so the rest means what it meant before.
      have scopes : (tree.refer (Usage.places tree [usage])).scopes = tree.scopes := rfl
      rw [List.foldl_cons, settle_eq, ih, Usage.places_congr scopes,
        Usage.unresolvedAmong_congr scopes, ScopeTree.refer_refer, List.append_assoc,
        ← Usage.unresolvedAmong_append]
      simp only [← Usage.places_append]
      rfl

/-- Uses in the order in which they start. -/
def inOrder (usages : List Usage) : List Usage :=
  usages.mergeSort fun left right => left.span.start.precedes right.span.start

/-- All uses of the document are settled by the tree that the walk leaves behind. -/
theorem ofDocument_eq (document : Document) (builtins : List String) (reportUnresolved : Bool) :
    ofDocument document builtins reportUnresolved =
      ⟨(findings document builtins).tree.refer
          (Usage.places (findings document builtins).tree (inOrder document.usages)),
        (Definition.duplicates document.definitions ++
          Usage.unresolvedAmong (findings document builtins).tree reportUnresolved
            (inOrder document.usages)).mergeSort fun left right =>
              left.span.start.precedes right.span.start⟩ := by
  have records := findings_records document builtins
  unfold ofDocument
  dsimp only
  rw [settleAll_eq, records.usages, records.errors]
  rfl

/-- The uses are settled in the order of their places, whatever the order of the walk. -/
theorem ofDocument_settles (document : Document) (builtins : List String)
    (reportUnresolved : Bool) :
    ∃ usages : List Usage, usages.Perm document.usages ∧
      usages.Pairwise (fun left right => left.span.start.precedes right.span.start) ∧
      (ofDocument document builtins reportUnresolved).tree =
        (findings document builtins).tree.refer
          (Usage.places (findings document builtins).tree usages) ∧
      (ofDocument document builtins reportUnresolved).errors.Perm
        (Definition.duplicates document.definitions ++
          Usage.unresolvedAmong (findings document builtins).tree reportUnresolved usages) := by
  have equal := ofDocument_eq document builtins reportUnresolved
  refine ⟨inOrder document.usages, List.mergeSort_perm .., ?_, congrArg tree equal,
    equal ▸ List.mergeSort_perm ..⟩
  exact List.pairwise_mergeSort
    (fun one two three : Usage =>
      @Position.precedes_trans one.span.start two.span.start three.span.start)
    (fun one two => Position.precedes_total one.span.start two.span.start) _

/-- References change no scope. -/
theorem ofDocument_scopes (document : Document) (builtins : List String)
    (reportUnresolved : Bool) :
    (ofDocument document builtins reportUnresolved).tree.scopes =
      (findings document builtins).tree.scopes := by
  obtain ⟨usages, -, -, tree, -⟩ := ofDocument_settles document builtins reportUnresolved
  rw [tree]
  rfl

/-- The references of a symbol are the places of the uses that mean it, in order. -/
theorem ofDocument_references {document : Document} {builtins : List String}
    {reportUnresolved : Bool} {index : Nat} {symbol : Symbol}
    (found : (ofDocument document builtins reportUnresolved).tree.symbols[index]? =
      some symbol) :
    symbol.references.Perm (Usage.places (ofDocument document builtins reportUnresolved).tree
        document.usages index) ∧
      symbol.references.Pairwise fun left right => left.start.precedes right.start := by
  obtain ⟨usages, perm, ordered, tree, -⟩ :=
    ofDocument_settles document builtins reportUnresolved
  rw [Usage.places_congr (ofDocument_scopes document builtins reportUnresolved)]
  rw [tree, ScopeTree.getElem?_refer] at found
  obtain ⟨old, at_, rfl⟩ := Option.map_eq_some_iff.1 found
  have unused := (findings_records document builtins).unused old (List.mem_of_getElem? at_)
  simp only [unused, List.nil_append]
  exact ⟨(perm.filter _).map _, (ordered.filter _).map _ fun _ _ precedes => precedes⟩

/-- The definition of a symbol is one that the symbol's slot has in the document. -/
theorem ofDocument_definition {document : Document} {builtins : List String}
    {reportUnresolved : Bool} {index : Nat} {symbol : Symbol}
    (found : (ofDocument document builtins reportUnresolved).tree.symbols[index]? =
      some symbol) {span : Span} (defined : symbol.definition = some span) :
    ∃ definition ∈ document.definitions, definition.span = span ∧
      (ofDocument document builtins reportUnresolved).tree.at? definition.slot = some index := by
  have records := findings_records document builtins
  obtain ⟨usages, -, -, tree, -⟩ := ofDocument_settles document builtins reportUnresolved
  rw [tree, ScopeTree.getElem?_refer] at found
  obtain ⟨old, at_, rfl⟩ := Option.map_eq_some_iff.1 found
  obtain ⟨definition, member, slot, same⟩ := records.mem_definitions at_ defined
  refine ⟨definition, member, same, ?_⟩
  rw [tree, slot]
  exact (records.consistent old.slot index).2 (by rw [at_, Option.map_some])

end Resolution

/-! ## Definitions -/

theorem Definition.duplicates_isDuplicate {definitions : List Definition} :
    ∀ error ∈ duplicates definitions, error.isDuplicate = true := by
  unfold duplicates
  generalize [] = earlier
  induction definitions generalizing earlier with
  | nil => simp [duplicatesBehind]
  | cons definition rest ih =>
      intro error member
      rcases List.mem_append.1 member with here | further
      · obtain ⟨first, -, rfl⟩ := List.mem_map.1 here
        rfl
      · exact ih _ error further

theorem Usage.unresolvedAmong_isDuplicate {tree : ScopeTree} {reportUnresolved : Bool}
    {usages : List Usage} :
    ∀ error ∈ unresolvedAmong tree reportUnresolved usages, error.isDuplicate = false := by
  unfold unresolvedAmong
  split
  · intro error member
    obtain ⟨usage, -, rfl⟩ := List.mem_map.1 member
    rfl
  · simp

namespace Resolution

/-- Each slot that the document defines or a builtin fills has one symbol, and no other slot has
any.  The symbol has the first definition of its slot, or none if it is a builtin only; every later
definition is an error that names the first. -/
theorem ofDocument_definitions (document : Document) (builtins : List String)
    (reportUnresolved : Bool) :
    (ofDocument document builtins reportUnresolved).tree.parents =
        none :: document.outerScopes.map some ∧
      (ofDocument document builtins reportUnresolved).tree.Consistent ∧
      (∀ slot : Slot,
        ((ofDocument document builtins reportUnresolved).tree.symbols.filter
            (·.slot == slot)).map Symbol.definition =
          (slot.standing builtins document.definitions).toList) ∧
      ((ofDocument document builtins reportUnresolved).errors.filter
          ResolveError.isDuplicate).Perm (Definition.duplicates document.definitions) := by
  have records := findings_records document builtins
  obtain ⟨usages, -, -, tree, errors⟩ := ofDocument_settles document builtins reportUnresolved
  have consistent := records.consistent.refer
    (Usage.places (findings document builtins).tree usages)
  rw [tree]
  refine ⟨findings_parents document builtins, consistent, fun slot => ?_, ?_⟩
  · rw [consistent.filter_slot, ← records.standing slot, ← ScopeTree.definition_refer]
    cases ScopeTree.symbolAt _ slot <;> rfl
  · refine (errors.filter _).trans (.of_eq ?_)
    rw [List.filter_append, List.filter_eq_self.2 Definition.duplicates_isDuplicate,
      List.filter_eq_nil_iff.2, List.append_nil]
    intro error member
    simp [Usage.unresolvedAmong_isDuplicate error member]

/-! ## Uses -/

/-- Where the uses of a document have gone. -/
structure Accounts (document : Document) (builtins : List String) (reportUnresolved : Bool)
    (resolution : Resolution) : Prop where
  parents : resolution.tree.parents = none :: document.outerScopes.map some
  /-- The tree has all names that are defined anywhere in the document, and the builtins. -/
  names : ∀ slot : Slot, (resolution.tree.at? slot).isSome =
    (slot.standing builtins document.definitions).isSome
  meaning : ∀ (usage : Usage) (symbol : Nat),
    usage.lookup? resolution.tree = some symbol ↔ usage.Means resolution.tree symbol
  bound : ∀ (usage : Usage) (symbol : Nat),
    usage.Means resolution.tree symbol → symbol < resolution.tree.symbols.length
  /-- Every symbol has the places of those uses that mean it, and no others. -/
  references : ∀ (index : Nat) (symbol : Symbol), resolution.tree.symbols[index]? = some symbol →
    symbol.references.Perm (Usage.places resolution.tree document.usages index)
  ordered : ∀ symbol ∈ resolution.tree.symbols,
    symbol.references.Pairwise fun left right => left.start.precedes right.start
  /-- Every use that means nothing is an error, if such errors are wanted. -/
  errors : (resolution.errors.filter (!·.isDuplicate)).Perm
    (Usage.unresolvedAmong resolution.tree reportUnresolved document.usages)

/-- Every use of a document ends at the one symbol that it means in the finished tree, or among the
errors. -/
theorem ofDocument_usages (document : Document) (builtins : List String)
    (reportUnresolved : Bool) :
    Accounts document builtins reportUnresolved
      (ofDocument document builtins reportUnresolved) := by
  have records := findings_records document builtins
  obtain ⟨usages, perm, -, tree, errors⟩ := ofDocument_settles document builtins reportUnresolved
  have scopes := ofDocument_scopes document builtins reportUnresolved
  have parents : (ofDocument document builtins reportUnresolved).tree.parents =
      (findings document builtins).tree.parents := congrArg (List.map Scope.parent) scopes
  have outward : (ofDocument document builtins reportUnresolved).tree.Outward := by
    intro scope parent found
    rw [ScopeTree.parent?_eq, parents, ← ScopeTree.parent?_eq] at found
    exact records.outward scope parent found
  have consistent := records.consistent.refer
    (Usage.places (findings document builtins).tree usages)
  rw [← tree] at consistent
  refine ⟨parents.trans (findings_parents document builtins), fun slot => ?_,
    fun usage symbol => Usage.lookup?_eq_some_iff outward, fun usage symbol means => ?_,
    fun index symbol found => (ofDocument_references found).1, fun symbol member => ?_, ?_⟩
  · rw [← consistent.isSome_symbolAt, tree, ← records.standing slot, ← ScopeTree.definition_refer,
      Option.isSome_map]
  · rcases means with finds | ⟨-, -, -, finds⟩ <;> exact consistent.lt_of_finds finds
  · obtain ⟨index, found⟩ := List.mem_iff_getElem?.1 member
    exact (ofDocument_references found).2
  · refine (errors.filter _).trans ?_
    rw [List.filter_append, List.filter_eq_nil_iff.2, List.nil_append,
      List.filter_eq_self.2, Usage.unresolvedAmong_congr scopes]
    · exact Usage.unresolvedAmong_perm perm reportUnresolved
    · intro error member
      simp [Usage.unresolvedAmong_isDuplicate error member]
    · intro error member
      simp [Definition.duplicates_isDuplicate error member]

end Resolution

end NovelScript
