import NovelScript.Proofs.Diagnostics
import NovelScript.Proofs.Resolutions
import NovelScript.Proofs.ScopeChains

/-!
# Other options

The options of an analysis decide about warnings only.  A builtin more makes some names that meant
nothing mean something, and takes no definition and no meaning away; every run is compared with the
one that knows no builtins at all.
-/

namespace NovelScript

/-! ## Sorting what is left -/

section
variable {α : Type} {le : α → α → Bool} (trans : ∀ a b c, le a b = true → le b c = true → le a c)
  (total : ∀ a b, (le a b || le b a) = true)
include trans total

/-- The first of a list to be sorted comes behind all that must precede it, and before the rest. -/
private theorem mergeSort_cons_eq (first : α) (rest : List α) :
    (first :: rest).mergeSort le =
      (rest.mergeSort le).filter (!le first ·) ++
        first :: (rest.mergeSort le).filter (le first ·) := by
  obtain ⟨before, behind, whole, parts, smaller⟩ := List.mergeSort_cons trans total first rest
  have sorted := List.pairwise_mergeSort trans total (first :: rest)
  rw [whole] at sorted
  have larger := (List.pairwise_cons.1 (List.pairwise_append.1 sorted).2.1).1
  have left : before.filter (le first ·) = [] :=
    List.filter_eq_nil_iff.2 fun item member => by simpa using smaller item member
  have right : behind.filter (!le first ·) = [] :=
    List.filter_eq_nil_iff.2 fun item member => by simpa using larger item member
  rw [whole, parts, List.filter_append, List.filter_append, left, right, List.append_nil,
    List.nil_append, List.filter_eq_self.2 smaller, List.filter_eq_self.2 larger]

/-- It makes no difference whether items are taken out before sorting or after it. -/
private theorem filter_mergeSort (keeps : α → Bool) (items : List α) :
    (items.mergeSort le).filter keeps = (items.filter keeps).mergeSort le := by
  induction items with
  | nil => simp
  | cons first rest ih =>
      cases kept : keeps first with
      | true =>
          rw [List.filter_cons_of_pos kept, mergeSort_cons_eq trans total,
            mergeSort_cons_eq trans total, ← ih, List.filter_append, List.filter_cons_of_pos kept]
          simp only [List.filter_filter, Bool.and_comm]
      | false =>
          obtain ⟨before, behind, whole, parts, -⟩ :=
            List.mergeSort_cons trans total first rest
          rw [List.filter_cons_of_neg (by simp [kept]), ← ih, whole, parts, List.filter_append,
            List.filter_append, List.filter_cons_of_neg (by simp [kept])]

end

/-! ## Uses of a document -/

/-- A use of a variable or of a function in one of the first scopes. -/
structure Usage.Plain (scopes : Nat) (usage : Usage) : Prop where
  kind : usage.kind = .«variable» ∨ usage.kind = .function
  scope : usage.scope < scopes

theorem Usage.Plain.mono {scopes more : Nat} {usage : Usage} (plain : usage.Plain scopes)
    (longer : scopes ≤ more) : usage.Plain more :=
  ⟨plain.kind, Nat.lt_of_lt_of_le plain.scope longer⟩

theorem Expression.usages_plain {scope scopes : Nat} (inside : scope < scopes)
    (expression : Expression) : ∀ usage ∈ expression.usages scope, usage.Plain scopes := by
  induction expression with
  | literal value => simp [usages]
  | reference name =>
      intro usage member
      obtain rfl := List.mem_singleton.1 member
      exact ⟨.inl rfl, inside⟩
  | parenthesized inner span ih => exact ih
  | assignment left operator right span _ ih => exact ih
  | python code => simp [usages]

theorem Expression.usages_plain_of_mem {scope scopes : Nat} (inside : scope < scopes)
    (expressions : List Expression) :
    ∀ usage ∈ expressions.flatMap (usages scope), usage.Plain scopes := by
  intro usage member
  obtain ⟨expression, -, among⟩ := List.mem_flatMap.1 member
  exact expression.usages_plain inside usage among

theorem Identifier.usages_plain {scope scopes : Nat} (inside : scope < scopes)
    (target : Option Identifier) : ∀ usage ∈ usages scope target, usage.Plain scopes := by
  intro usage member
  obtain ⟨name, -, rfl⟩ := List.mem_map.1 member
  exact ⟨.inr rfl, inside⟩

theorem Assignment.usages_plain {scope scopes : Nat} (inside : scope < scopes)
    (assignment : Option Assignment) : ∀ usage ∈ usages scope assignment, usage.Plain scopes := by
  intro usage member
  obtain ⟨assigned, -, among⟩ := List.mem_flatMap.1 member
  exact assigned.right.usages_plain inside usage among

theorem LabelHead.usages_plain {scope scopes : Nat} (inside : scope < scopes)
    (head : LabelHead) : ∀ usage ∈ head.usages scope, usage.Plain scopes := by
  intro usage member
  obtain ⟨parameter, -, among⟩ := List.mem_flatMap.1 member
  exact Expression.usages_plain_of_mem inside _ usage among

namespace Statement

mutual

/-- Uses stand in scopes that are there: the one around the statement, or those of its labels. -/
theorem usages_plain {scope next : Nat} (inside : scope < next) : ∀ statement : Statement,
    ∀ usage ∈ statement.usages scope next, usage.Plain (next + statement.labelCount)
  | .define binding => Assignment.usages_plain inside binding.assignment
  | .defaultValue binding => Assignment.usages_plain inside binding.assignment
  | .label head body _ => by
      intro usage member
      rcases List.mem_append.1 member with outer | inner
      · exact (head.usages_plain inside usage outer).mono (Nat.le_add_right ..)
      · refine (usagesOfAll_plain (Nat.lt_succ_self next) body usage inner).mono ?_
        simp only [labelCount]
        omega
  | .jump transfer => Identifier.usages_plain inside transfer.target
  | .call transfer => by
      intro usage member
      rcases List.mem_append.1 member with target | argument
      · exact Identifier.usages_plain inside transfer.target usage target
      · exact Expression.usages_plain_of_mem inside transfer.arguments usage argument
  | .return value _ => Expression.usages_plain_of_mem inside value.toList
  | .pause duration _ => Expression.usages_plain_of_mem inside duration.toList
  | .pass _ | .python .. => fun _ member => absurd member List.not_mem_nil

theorem usagesOfAll_plain {scope next : Nat} (inside : scope < next) : ∀ statements,
    ∀ usage ∈ usagesOfAll scope next statements, usage.Plain (next + labelCountOfAll statements)
  | [] => fun _ member => absurd member List.not_mem_nil
  | statement :: rest => by
      intro usage member
      rcases List.mem_append.1 member with here | later
      · refine (usages_plain inside statement usage here).mono ?_
        simp only [labelCountOfAll]
        omega
      · refine (usagesOfAll_plain (by omega) rest usage later).mono ?_
        simp only [labelCountOfAll]
        omega

end

end Statement

theorem Document.usages_plain (document : Document) :
    ∀ usage ∈ document.usages, usage.Plain (document.outerScopes.length + 1) := by
  intro usage member
  refine (Statement.usagesOfAll_plain Nat.one_pos document.statements usage member).mono ?_
  exact Nat.le_of_eq (by rw [outerScopes, Statement.outerScopesOfAll_length, Nat.add_comm])

/-! ## Names that builtins bind -/

/-- Whether builtins give a meaning to a use of a variable, by its name or its first segment. -/
def Usage.isBuiltin (builtins : List String) (usage : Usage) : Bool :=
  decide (usage.kind = .«variable») &&
    (builtins.contains usage.name || builtins.contains (root usage.name))

/-- Whether an error is about a variable that these builtins would give a meaning to. -/
def ResolveError.isSilenced (builtins : List String) : ResolveError → Bool
  | .unresolvedReference name kind _ =>
      decide (kind = .«variable») &&
        (builtins.contains name || builtins.contains (Usage.root name))
  | .duplicateSymbol .. => false

theorem ResolveError.isSilenced_mono {builtins others : List String} (more : builtins ⊆ others)
    {error : ResolveError} (silenced : error.isSilenced builtins = true) :
    error.isSilenced others = true := by
  cases error with
  | duplicateSymbol name kind span first => cases silenced
  | unresolvedReference name kind span =>
      simp only [isSilenced, Bool.and_eq_true, Bool.or_eq_true, List.contains_iff_mem] at silenced ⊢
      exact ⟨silenced.1, silenced.2.imp (@more _) (@more _)⟩

theorem Usage.unresolved_isSilenced (builtins : List String) (usage : Usage) :
    usage.unresolved.isSilenced builtins = usage.isBuiltin builtins := rfl

theorem Usage.lookup?_eq_none_iff {tree : ScopeTree} {usage : Usage} :
    usage.lookup? tree = none ↔ tree.lookup? usage.scope usage.name usage.kind = none ∧
      (usage.kind = .«variable» →
        tree.lookup? usage.scope (root usage.name) usage.kind = none) := by
  unfold lookup?
  cases whole : tree.lookup? usage.scope usage.name usage.kind with
  | some symbol => simp
  | none =>
      by_cases same : root usage.name = usage.name
      · simp [same, whole]
      · by_cases isVariable : usage.kind = .«variable» <;> simp [same, isVariable]

namespace Resolution

open ScopeTree

variable (document : Document) (builtins : List String)

/-- All runs over a document open the same scopes. -/
theorem findings_sameParents (other : List String) :
    (findings document builtins).tree.parents = (findings document other).tree.parents := by
  rw [findings_parents, findings_parents]

theorem findings_lookup?_eq_none_iff {scope : Nat}
    (inside : scope < document.outerScopes.length + 1) (name : String) (kind : SymbolKind) :
    (findings document builtins).tree.lookup? scope name kind = none ↔
      (findings document []).tree.lookup? scope name kind = none ∧
        ¬(kind.isFunction = false ∧ name ∈ builtins) := by
  have records := findings_records document builtins
  have plain := findings_records document []
  have missing {tree : ScopeTree} (outward : tree.Outward) :
      tree.lookup? scope name kind = none ↔ ¬∃ symbol, tree.Finds name kind scope symbol := by
    simp only [← lookup?_eq_some_iff outward, ← Option.isSome_iff_exists, Bool.not_eq_true,
      Option.isSome_eq_false_iff, Option.isNone_iff_eq_none]
  rw [missing records.outward, missing plain.outward, ← not_or, not_iff_not, exists_finds_iff,
    exists_finds_iff]
  simp only [get?_eq, records.isSome_at?, plain.isSome_at?, Slot.isBuiltin_iff, List.not_mem_nil,
    and_false, or_false]
  constructor
  · rintro ⟨outer, around, defined | ⟨-, variable_, member⟩⟩
    · exact .inl ⟨outer, around.congr (findings_sameParents ..), defined⟩
    · exact .inr ⟨variable_, member⟩
  · rintro (⟨outer, around, defined⟩ | ⟨variable_, member⟩)
    · exact ⟨outer, around.congr (findings_sameParents ..), .inl defined⟩
    · -- Every way outwards ends in the global scope, which has all builtins.
      have parents := findings_parents document builtins
      rw [← scopes_length parents] at inside
      have rooted := (rooted_iff_outward parents).2 records.outward
      exact ⟨globalScope, rooted.around_global inside, .inr ⟨rfl, variable_, member⟩⟩

/-- What a use means without builtins it means with them as well, and builtins give a meaning to
those variables only that they name. -/
theorem findings_usage_iff {usage : Usage} (member : usage ∈ document.usages) :
    usage.lookup? (findings document builtins).tree = none ↔
      usage.lookup? (findings document []).tree = none ∧ usage.isBuiltin builtins = false := by
  obtain ⟨kind, inside⟩ := document.usages_plain usage member
  rw [Usage.lookup?_eq_none_iff, Usage.lookup?_eq_none_iff,
    findings_lookup?_eq_none_iff document builtins inside,
    findings_lookup?_eq_none_iff document builtins inside]
  rcases kind with kind | kind
  · simp [kind, Usage.isBuiltin, SymbolKind.isFunction]
    tauto
  · simp [kind, Usage.isBuiltin, SymbolKind.isFunction]

/-! ## Errors -/

private theorem filter_sorted (keeps : ResolveError → Bool) (errors : List ResolveError) :
    (errors.mergeSort fun left right => left.span.start.precedes right.span.start).filter keeps =
      (errors.filter keeps).mergeSort fun left right =>
        left.span.start.precedes right.span.start :=
  filter_mergeSort
    (fun one two three : ResolveError =>
      @Position.precedes_trans one.span.start two.span.start three.span.start)
    (fun one two : ResolveError => Position.precedes_total one.span.start two.span.start)
    keeps errors

/-- Whatever the options, the repeated definitions are those of the document. -/
theorem ofDocument_duplicates (reportUnresolved : Bool) :
    (ofDocument document builtins reportUnresolved).errors.filter ResolveError.isDuplicate =
      (Definition.duplicates document.definitions).mergeSort fun left right =>
        left.span.start.precedes right.span.start := by
  rw [ofDocument_eq, filter_sorted, List.filter_append,
    List.filter_eq_self.2 Definition.duplicates_isDuplicate, List.filter_eq_nil_iff.2,
    List.append_nil]
  intro error member
  simp [Usage.unresolvedAmong_isDuplicate error member]

/-- Builtins take the errors away that name them, and leave all others in their places. -/
theorem ofDocument_silenced :
    (ofDocument document builtins true).errors =
      (ofDocument document [] true).errors.filter (!·.isSilenced builtins) := by
  have kept : (Definition.duplicates document.definitions).filter (!·.isSilenced builtins) =
      Definition.duplicates document.definitions := by
    refine List.filter_eq_self.2 fun error member => ?_
    have duplicate := Definition.duplicates_isDuplicate error member
    cases error with
    | duplicateSymbol name kind span first => rfl
    | unresolvedReference name kind span => simp [ResolveError.isDuplicate] at duplicate
  have unresolved :
      Usage.unresolvedAmong (findings document builtins).tree true (inOrder document.usages) =
        (Usage.unresolvedAmong (findings document []).tree true
          (inOrder document.usages)).filter (!·.isSilenced builtins) := by
    simp only [Usage.unresolvedAmong, if_true, List.filter_map, List.filter_filter]
    refine congrArg _ (List.filter_congr fun usage member => ?_)
    have meaning := findings_usage_iff document builtins (List.mem_mergeSort.1 member)
    rw [Bool.eq_iff_iff]
    simpa [Usage.unresolved_isSilenced, and_comm] using meaning
  rw [ofDocument_eq, ofDocument_eq, filter_sorted, List.filter_append, kept, unresolved]

theorem ofDocument_unreported :
    (ofDocument document builtins false).tree = (ofDocument document builtins true).tree ∧
      (ofDocument document builtins false).errors =
        (ofDocument document builtins true).errors.filter ResolveError.isDuplicate := by
  rw [ofDocument_duplicates]
  simp only [ofDocument_eq]
  exact ⟨trivial, by simp [Usage.unresolvedAmong]⟩

end Resolution

namespace Analysis

/-- Options decide about warnings only.  Repeated definitions and grave diagnostics are the same
under all of them; more builtins take away just the warnings about variables that they name, and
without warnings the symbols are what they are with them. -/
theorem ofText_options (source : List Char) (first second : AnalysisOptions) :
    (ofText source first).resolveErrors.filter ResolveError.isDuplicate =
        (ofText source second).resolveErrors.filter ResolveError.isDuplicate ∧
      (ofText source first).hasErrors = (ofText source second).hasErrors ∧
      (first.builtins ⊆ second.builtins →
        first.reportUnresolved = true → second.reportUnresolved = true →
        (ofText source second).resolveErrors =
          (ofText source first).resolveErrors.filter (!·.isSilenced second.builtins)) ∧
      (ofText source ⟨first.builtins, false⟩).symbols =
        (ofText source ⟨first.builtins, true⟩).symbols ∧
      (ofText source ⟨first.builtins, false⟩).resolveErrors =
        (ofText source ⟨first.builtins, true⟩).resolveErrors.filter
          ResolveError.isDuplicate := by
  let document := (Document.ofTokens source (Token.ofText source)).1
  have duplicates (options : AnalysisOptions) :=
    Resolution.ofDocument_duplicates document options.builtins options.reportUnresolved
  have same : (ofText source first).resolveErrors.filter ResolveError.isDuplicate =
      (ofText source second).resolveErrors.filter ResolveError.isDuplicate :=
    (duplicates first).trans (duplicates second).symm
  have grave (options : AnalysisOptions) : (ofText source options).hasErrors = true ↔
      (ofText source first).lexErrors ≠ [] ∨ (ofText source first).parseErrors ≠ [] ∨
        (ofText source options).resolveErrors.filter ResolveError.isDuplicate ≠ [] := by
    refine (Diagnostic.any_isError_collect_iff fun error member dropped => ?_).trans ?_
    · obtain ⟨lexical, among, -⟩ := ofText_lexError_of_isInvalid member dropped
      exact List.ne_nil_of_mem among
    · simp only [ne_eq, List.filter_eq_nil_iff, not_forall, Bool.not_eq_true, Bool.not_eq_false,
        exists_prop]
      exact Iff.rfl
  refine ⟨same, ?_, fun more reports reports' => ?_,
    Resolution.ofDocument_unreported document first.builtins⟩
  · rw [Bool.eq_iff_iff, grave, grave, same]
  · obtain ⟨builtins, _⟩ := first
    obtain ⟨builtins', _⟩ := second
    cases reports
    cases reports'
    show (Resolution.ofDocument document builtins' true).errors =
      (Resolution.ofDocument document builtins true).errors.filter _
    rw [Resolution.ofDocument_silenced, Resolution.ofDocument_silenced document builtins,
      List.filter_filter]
    refine List.filter_congr fun error _ => ?_
    -- What fewer builtins take away is among what more of them do.
    cases silenced : error.isSilenced builtins with
    | false => simp
    | true => simp [ResolveError.isSilenced_mono more silenced]

private def script : List Char :=
  "define config = 1\ndefine config = 2\nreturn gui.text\nreturn hero\njump gui\n".toList

/-- A name with a dot, one that is bound nowhere and the target of a jump, under one builtin and
under two. -/
theorem script_options :
    ["config"] ⊆ ["gui", "config"] ∧
      (ofText script ⟨["gui", "config"], true⟩).resolveErrors =
        (ofText script ⟨["config"], true⟩).resolveErrors.filter
          (!·.isSilenced ["gui", "config"]) := by
  have more : ["config"] ⊆ ["gui", "config"] := by simp
  have options := ofText_options script ⟨["config"], true⟩ ⟨["gui", "config"], true⟩
  exact ⟨more, options.2.2.1 more rfl rfl⟩

end Analysis

end NovelScript
