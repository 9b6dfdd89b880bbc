import NovelScript.Analysis
import NovelScript.Proofs.CorrespondingStatements

/-!
# Corresponding analyses

Names are resolved alike in corresponding documents, and problems are reported in the same order:
scripts that correspond line by line have the same diagnostics at the same lines and columns.
-/

namespace NovelScript

/-! ## Lists -/

section Lists

variable {α β : Type} {relation : α → β → Prop} {first : List α} {second : List β}

theorem getElem?_rel (same : List.Forall₂ relation first second) (index : Nat) :
    Option.Rel relation first[index]? second[index]? := by
  induction same generalizing index with
  | nil => exact .none
  | cons here _ ih =>
      cases index with
      | zero => exact .some here
      | succ index => simpa only [List.getElem?_cons_succ] using ih index

theorem set_rel (same : List.Forall₂ relation first second) (index : Nat) {value : α} {value' : β}
    (values : relation value value') :
    List.Forall₂ relation (first.set index value) (second.set index value') := by
  induction same generalizing index with
  | nil => exact .nil
  | cons here later ih =>
      cases index with
      | zero => exact .cons values later
      | succ index => exact .cons here (ih index)

theorem modify_rel (same : List.Forall₂ relation first second) (index : Nat) {change : α → α}
    {change' : β → β}
    (changes : ∀ value value', relation value value' → relation (change value) (change' value')) :
    List.Forall₂ relation (first.modify index change) (second.modify index change') := by
  induction same generalizing index with
  | nil => simp
  | cons here later ih =>
      cases index with
      | zero => exact .cons (changes _ _ here) later
      | succ index => exact .cons here (ih index)

/-- Lists that correspond entry by entry and are sorted alike stay so when they are sorted. -/
theorem mergeSort_rel (precedes : α → α → Bool) (precedes' : β → β → Bool)
    (agree : ∀ left left' right right', relation left left' → relation right right' →
      precedes left right = precedes' left' right')
    (same : List.Forall₂ relation first second) :
    List.Forall₂ relation (first.mergeSort precedes) (second.mergeSort precedes') := by
  obtain ⟨length, entries⟩ := List.forall₂_iff_zip.1 same
  let pairs := first.zip second
  let sorted := pairs.mergeSort fun left right => precedes left.1 right.1
  have left : sorted.map Prod.fst = first.mergeSort precedes := by
    rw [List.map_mergeSort (s := precedes) fun _ _ _ _ => rfl, List.map_fst_zip (Nat.le_of_eq length)]
  have right : sorted.map Prod.snd = second.mergeSort precedes' := by
    rw [List.map_mergeSort (s := precedes') fun pair member pair' member' => agree _ _ _ _
      (entries member) (entries member'), List.map_snd_zip (Nat.le_of_eq length.symm)]
  rw [← left, ← right, List.forall₂_map_left_iff, List.forall₂_map_right_iff, List.forall₂_same]
  intro pair member
  exact entries (List.mem_mergeSort.1 member)

end Lists

namespace Findings

/-- The findings with a label bound in the scope around it. -/
def named (findings : Findings) (head : LabelHead) : Findings :=
  match head.name with
  | some name => findings.define findings.scope name.name .function name.span
  | none => findings

theorem enterLabel_eq (findings : Findings) (head : LabelHead) (span : Span) :
    findings.enterLabel head span =
      head.parameters.foldl
        (fun inside parameter =>
          inside.define ((findings.named head).tree.openScope findings.scope span).1
            parameter.name.name .«variable» parameter.name.span)
        { findings.named head with
          tree := ((findings.named head).tree.openScope findings.scope span).2
          around := ((findings.named head).tree.openScope findings.scope span).1 ::
            (findings.named head).around } :=
  rfl

end Findings

namespace Correspondence

variable (matching : Correspondence)

/-! ## Scope trees -/

structure Symbols (first second : Symbol) : Prop where
  name : first.name = second.name
  kind : first.kind = second.kind
  scope : first.scope = second.scope
  definition : Option.Rel matching.Spans first.definition second.definition
  references : List.Forall₂ matching.Spans first.references second.references

structure Scopes (first second : Scope) : Prop where
  parent : first.parent = second.parent
  span : matching.Spans first.span second.span
  variableNames : first.variableNames = second.variableNames
  functionNames : first.functionNames = second.functionNames

structure Trees (first second : ScopeTree) : Prop where
  scopes : List.Forall₂ matching.Scopes first.scopes second.scopes
  symbols : List.Forall₂ matching.Symbols first.symbols second.symbols

variable {matching}

theorem Scopes.get? {first second : Scope} (same : matching.Scopes first second) (name : String)
    (kind : SymbolKind) : first.get? name kind = second.get? name kind := by
  unfold Scope.get? Scope.bindings
  rw [same.variableNames, same.functionNames]

theorem Scopes.insert {first second : Scope} (same : matching.Scopes first second)
    (name : String) (kind : SymbolKind) (symbol : Nat) :
    matching.Scopes (first.insert name kind symbol) (second.insert name kind symbol) := by
  unfold Scope.insert
  split
  · exact { same with functionNames := congrArg (· ++ [(name, symbol)]) same.functionNames }
  · exact { same with variableNames := congrArg (· ++ [(name, symbol)]) same.variableNames }

namespace Trees

variable {first second : ScopeTree}

theorem bind (same : matching.Trees first second) (scope : Nat) (name : String)
    (kind : SymbolKind) {definition definition' : Option Span}
    (definitions : Option.Rel matching.Spans definition definition') :
    (first.bind scope name kind definition).1 = (second.bind scope name kind definition').1 ∧
      matching.Trees (first.bind scope name kind definition).2
        (second.bind scope name kind definition').2 := by
  unfold ScopeTree.bind
  rw [same.symbols.length_eq]
  match first.scopes[scope]?, second.scopes[scope]?, getElem?_rel same.scopes scope with
  | _, _, .none => exact ⟨rfl, same⟩
  | _, _, .some found =>
      simp only [found.get?]
      split
      · exact ⟨rfl, same⟩
      · refine ⟨rfl, set_rel same.scopes scope (found.insert name kind _), ?_⟩
        exact List.rel_append same.symbols (.cons ⟨rfl, rfl, rfl, definitions, .nil⟩ .nil)

theorem openScope (same : matching.Trees first second) (parent : Nat) {span span' : Span}
    (spans : matching.Spans span span') :
    (first.openScope parent span).1 = (second.openScope parent span').1 ∧
      matching.Trees (first.openScope parent span).2 (second.openScope parent span').2 :=
  ⟨same.scopes.length_eq,
    List.rel_append same.scopes (.cons ⟨rfl, spans, rfl, rfl⟩ .nil), same.symbols⟩

theorem claimBuiltin (same : matching.Trees first second) (symbol : Nat) {span span' : Span}
    (spans : matching.Spans span span') :
    (first.claimBuiltin symbol span).1 = (second.claimBuiltin symbol span').1 ∧
      matching.Trees (first.claimBuiltin symbol span).2 (second.claimBuiltin symbol span').2 := by
  unfold ScopeTree.claimBuiltin
  match first.symbols[symbol]?, second.symbols[symbol]?, getElem?_rel same.symbols symbol with
  | _, _, .none => exact ⟨rfl, same⟩
  | some found, some found', .some here =>
      have builtin : found.isBuiltin = found'.isBuiltin := by
        unfold Symbol.isBuiltin
        match found.definition, found'.definition, here.definition with
        | _, _, .none => rfl
        | _, _, .some _ => rfl
      simp only [builtin]
      split
      · exact ⟨rfl, same.scopes,
          set_rel same.symbols symbol { here with definition := .some spans }⟩
      · exact ⟨rfl, same⟩

theorem addReference (same : matching.Trees first second) (symbol : Nat) {span span' : Span}
    (spans : matching.Spans span span') :
    matching.Trees (first.addReference symbol span) (second.addReference symbol span') :=
  ⟨same.scopes, modify_rel same.symbols symbol fun _ _ here =>
    { here with references := List.rel_append here.references (.cons spans .nil) }⟩

theorem lookupWithin (same : matching.Trees first second) (name : String) (kind : SymbolKind)
    (steps scope : Nat) :
    first.lookupWithin name kind steps scope = second.lookupWithin name kind steps scope := by
  induction steps generalizing scope with
  | zero =>
      rw [ScopeTree.lookupWithin.eq_def, ScopeTree.lookupWithin.eq_def]
      simp only
      match first.scopes[scope]?, second.scopes[scope]?, getElem?_rel same.scopes scope with
      | _, _, .none => rfl
      | _, _, .some found => simp only [found.get?]
  | succ steps ih =>
      rw [ScopeTree.lookupWithin.eq_def, ScopeTree.lookupWithin.eq_def]
      simp only
      match first.scopes[scope]?, second.scopes[scope]?, getElem?_rel same.scopes scope with
      | _, _, .none => rfl
      | _, some scope, .some found =>
          simp only [found.get?, found.parent]
          cases scope.parent with
          | none => rfl
          | some parent => simp only [ih]

theorem lookup? (same : matching.Trees first second) (scope : Nat) (name : String)
    (kind : SymbolKind) : first.lookup? scope name kind = second.lookup? scope name kind := by
  unfold ScopeTree.lookup?
  rw [same.scopes.length_eq, same.lookupWithin]

end Trees

/-! ## Resolution -/

variable (matching) in
structure Usages (first second : Usage) : Prop where
  name : first.name = second.name
  kind : first.kind = second.kind
  span : matching.Spans first.span second.span
  scope : first.scope = second.scope

variable (matching) in
inductive ResolveErrors : ResolveError → ResolveError → Prop
  | duplicate {name : String} {kind : SymbolKind} {span span' first first' : Span}
      (spans : matching.Spans span span') (firsts : matching.Spans first first') :
      ResolveErrors (.duplicateSymbol name kind span first)
        (.duplicateSymbol name kind span' first')
  | unresolved {name : String} {kind : SymbolKind} {span span' : Span}
      (spans : matching.Spans span span') :
      ResolveErrors (.unresolvedReference name kind span) (.unresolvedReference name kind span')

theorem ResolveErrors.span {first second : ResolveError}
    (same : matching.ResolveErrors first second) : matching.Spans first.span second.span := by
  cases same with
  | duplicate spans _ | unresolved spans => exact spans

variable (matching) in
structure Found (first second : Findings) : Prop where
  tree : matching.Trees first.tree second.tree
  around : first.around = second.around
  usages : List.Forall₂ matching.Usages first.usages second.usages
  errors : List.Forall₂ matching.ResolveErrors first.errors second.errors

theorem Usages.lookup? {first second : Usage} {tree tree' : ScopeTree}
    (same : matching.Usages first second) (trees : matching.Trees tree tree') :
    first.lookup? tree = second.lookup? tree' := by
  unfold Usage.lookup?
  rw [same.scope, same.name, same.kind, trees.lookup?, trees.lookup?]

namespace Found

variable {first second : Findings}

theorem scope (same : matching.Found first second) : first.scope = second.scope := by
  rw [Findings.scope, Findings.scope, same.around]

theorem define (same : matching.Found first second) (scope : Nat) (name : String)
    (kind : SymbolKind) {span span' : Span} (spans : matching.Spans span span') :
    matching.Found (first.define scope name kind span)
      (second.define scope name kind span') := by
  unfold Findings.define
  obtain ⟨binding, bound⟩ := same.tree.bind scope name kind (.some spans)
  generalize first.tree.bind scope name kind (some span) = step at binding bound
  generalize second.tree.bind scope name kind (some span') = step' at binding bound
  obtain ⟨outcome, tree⟩ := step
  obtain ⟨outcome', tree'⟩ := step'
  obtain rfl : outcome = outcome' := binding
  cases outcome with
  | bound symbol => exact { same with tree := bound }
  | taken symbol =>
      obtain ⟨agree, claimed⟩ := Trees.claimBuiltin bound symbol spans
      dsimp only at agree claimed ⊢
      generalize tree.claimBuiltin symbol span = claim at agree claimed
      generalize tree'.claimBuiltin symbol span' = claim' at agree claimed
      obtain ⟨done, tree⟩ := claim
      obtain ⟨done', tree'⟩ := claim'
      obtain rfl : done = done' := agree
      cases done with
      | true => exact { same with tree := claimed }
      | false =>
          refine ⟨claimed, same.around, same.usages,
            List.rel_append same.errors (.cons (.duplicate spans ?_) .nil)⟩
          match tree.symbols[symbol]?, tree'.symbols[symbol]?,
            getElem?_rel claimed.symbols symbol with
          | _, _, .none => exact spans
          | some found, some found', .some here =>
              show matching.Spans (found.definition.getD span) (found'.definition.getD span')
              match found.definition, found'.definition, here.definition with
              | _, _, .none => exact spans
              | _, _, .some definitions => exact definitions

theorem defineTarget (same : matching.Found first second) {assignment assignment' : Option Assignment}
    (assignments : Option.Rel matching.Assignments assignment assignment') :
    matching.Found (first.defineTarget assignment) (second.defineTarget assignment') := by
  unfold Findings.defineTarget
  cases assignments with
  | none => exact same
  | @some assignment assignment' here =>
      simp only [Option.bind_some, Assignment.target?]
      match assignment.left.reference?, assignment'.left.reference?, here.left.reference? with
      | _, _, .none => exact same
      | _, _, .some targets =>
          simp only [targets.name]
          exact same.define _ _ _ targets.span

theorem noteUsage (same : matching.Found first second) (name : String) (kind : SymbolKind)
    {span span' : Span} (spans : matching.Spans span span') :
    matching.Found (first.noteUsage name kind span) (second.noteUsage name kind span') :=
  { same with
    usages := List.rel_append same.usages (.cons ⟨rfl, rfl, spans, same.scope⟩ .nil) }

theorem noteTarget (same : matching.Found first second) {target target' : Option Identifier}
    (targets : Option.Rel matching.Identifiers target target') :
    matching.Found (first.noteTarget target) (second.noteTarget target') := by
  unfold Findings.noteTarget
  cases targets with
  | none => exact same
  | some here =>
      simp only [here.name]
      exact same.noteUsage _ _ here.span

theorem named (same : matching.Found first second) {head head' : LabelHead}
    (heads : matching.LabelHeads head head') :
    matching.Found (first.named head) (second.named head') := by
  unfold Findings.named
  match head.name, head'.name, heads.name with
  | _, _, .none => exact same
  | _, _, .some names =>
      simp only [same.scope, names.name]
      exact same.define _ _ _ names.span

theorem enterLabel (same : matching.Found first second) {head head' : LabelHead}
    (heads : matching.LabelHeads head head') {span span' : Span}
    (spans : matching.Spans span span') :
    matching.Found (first.enterLabel head span) (second.enterLabel head' span') := by
  have named := same.named heads
  obtain ⟨index, opened⟩ := named.tree.openScope first.scope spans
  rw [Findings.enterLabel_eq, Findings.enterLabel_eq, ← same.scope, ← index]
  have entered : matching.Found
      { first.named head with
        tree := ((first.named head).tree.openScope first.scope span).2
        around := ((first.named head).tree.openScope first.scope span).1 ::
          (first.named head).around }
      { second.named head' with
        tree := ((second.named head').tree.openScope first.scope span').2
        around := ((first.named head).tree.openScope first.scope span).1 ::
          (second.named head').around } :=
    ⟨opened, congrArg (_ :: ·) named.around, named.usages, named.errors⟩
  refine List.rel_foldl (R := matching.Parameters) (P := matching.Found)
    (fun _ _ inside parameter parameter' parameters => ?_) entered heads.parameters
  simp only [parameters.name.name]
  exact inside.define _ _ _ parameters.name.span

theorem meet (same : matching.Found first second) {encounter encounter' : Encounter}
    (encounters : matching.Encounters encounter encounter') :
    matching.Found (first.meet encounter) (second.meet encounter') := by
  cases encounters with
  | define here | defaultValue here => exact same.defineTarget here.assignment
  | enterLabel heads spans => exact same.enterLabel heads spans
  | leaveLabel _ => exact { same with around := congrArg List.tail same.around }
  | jump here | call here => exact same.noteTarget here.target
  | expression _ => exact same
  | reference here =>
      simp only [Findings.meet, here.name]
      exact same.noteUsage _ _ here.span

end Found

variable (matching) in
structure Resolutions (first second : Resolution) : Prop where
  tree : matching.Trees first.tree second.tree
  errors : List.Forall₂ matching.ResolveErrors first.errors second.errors

theorem initialTree_corresponds {span span' : Span} (spans : matching.Spans span span')
    (builtins : List String) :
    matching.Trees (Resolution.initialTree span builtins)
      (Resolution.initialTree span' builtins) := by
  have start : matching.Trees (.ofSpan span) (.ofSpan span') :=
    ⟨.cons ⟨rfl, spans, rfl, rfl⟩ .nil, .nil⟩
  unfold Resolution.initialTree
  generalize ScopeTree.ofSpan span = tree at start
  generalize ScopeTree.ofSpan span' = tree' at start
  induction builtins generalizing tree tree' with
  | nil => exact start
  | cons name builtins ih => exact ih _ _ (start.bind _ name _ .none).2

theorem findings_correspond {document document' : Document}
    (same : matching.Documents document document') (builtins : List String) :
    matching.Found (Resolution.findings document builtins)
      (Resolution.findings document' builtins) := by
  have start : matching.Found { tree := Resolution.initialTree document.span builtins }
      { tree := Resolution.initialTree document'.span builtins } :=
    ⟨initialTree_corresponds same.span builtins, rfl, .nil, .nil⟩
  exact List.rel_foldl (R := matching.Encounters) (P := matching.Found)
    (fun _ _ found _ _ encounters => found.meet encounters) start same.walk

theorem settle_corresponds (reportUnresolved : Bool) {first second : Resolution}
    (same : matching.Resolutions first second) {usage usage' : Usage}
    (usages : matching.Usages usage usage') :
    matching.Resolutions (first.settle reportUnresolved usage)
      (second.settle reportUnresolved usage') := by
  unfold Resolution.settle
  rw [usages.lookup? same.tree]
  split
  · exact { same with tree := same.tree.addReference _ usages.span }
  · split
    · rw [usages.name, usages.kind]
      exact { same with
        errors := List.rel_append same.errors (.cons (.unresolved usages.span) .nil) }
    · exact same

theorem Spans.precedes {first second later later' : Span} (firsts : matching.Spans first second)
    (laters : matching.Spans later later') :
    first.start.precedes later.start = second.start.precedes later'.start := by
  rw [Position.precedes, Position.precedes, matching.compare firsts.start laters.start]

theorem resolution_corresponds {document document' : Document}
    (same : matching.Documents document document') (builtins : List String)
    (reportUnresolved : Bool) :
    matching.Resolutions (.ofDocument document builtins reportUnresolved)
      (.ofDocument document' builtins reportUnresolved) := by
  have found := findings_correspond same builtins
  let precedes (left right : Usage) : Bool := left.span.start.precedes right.span.start
  have sorted := mergeSort_rel precedes precedes
    (fun _ _ _ _ left right => Spans.precedes left.span right.span) found.usages
  have settled := List.rel_foldl (R := matching.Usages) (P := matching.Resolutions)
    (fun _ _ same _ _ usages => settle_corresponds reportUnresolved same usages)
    (⟨found.tree, found.errors⟩ : matching.Resolutions ⟨_, _⟩ ⟨_, _⟩) sorted
  exact ⟨settled.tree, mergeSort_rel _ _
    (fun _ _ _ _ left right => Spans.precedes left.span right.span) settled.errors⟩

/-! ## Diagnostics -/

variable (matching) in
structure LexErrors (first second : LexError) : Prop where
  problem : first.problem = second.problem
  span : matching.Spans first.span second.span

variable (matching) in
structure Diagnostics (first second : Diagnostic) : Prop where
  span : matching.Spans first.span second.span
  severity : first.severity = second.severity
  message : first.message = second.message
  code : first.code = second.code

variable (matching) in
/-- A correspondence that keeps lines, and with them the places that messages name. -/
structure KeepsLines : Prop where
  origin : matching.position .origin .origin
  line : ∀ first second, matching.position first second → first.line = second.line

theorem KeepsLines.displayOneBased (keeps : matching.KeepsLines) {first second : Position}
    (same : matching.position first second) : first.displayOneBased = second.displayOneBased := by
  rw [Position.displayOneBased, Position.displayOneBased, keeps.line _ _ same,
    matching.column same]

theorem ofToken?_corresponds {first second : Token} (same : matching.Tokens first second) :
    Option.Rel matching.LexErrors (LexError.ofToken? first) (LexError.ofToken? second) := by
  unfold LexError.ofToken? Token.isInvalid
  rw [same.kind, same.wrapped]
  split
  · exact .some ⟨rfl, same.span⟩
  · exact .none

namespace ParseErrors

variable {first second : ParseError}

theorem position (same : matching.ParseErrors first second) (keeps : matching.KeepsLines) :
    matching.position first.position second.position := by
  unfold ParseError.position
  match first.next, second.next, same.next with
  | _, _, .some next => exact next.span.start
  | _, _, .none =>
      match first.current, second.current, same.current with
      | _, _, .some current => exact current.span.stop
      | _, _, .none => exact keeps.origin

theorem span (same : matching.ParseErrors first second) (keeps : matching.KeepsLines) :
    matching.Spans first.span second.span := by
  have position := same.position keeps
  unfold ParseError.span
  match first.next, second.next, same.next with
  | _, _, .some next => exact next.span
  | _, _, .none => exact ⟨position, position⟩

theorem display (same : matching.ParseErrors first second) (keeps : matching.KeepsLines) :
    first.display = second.display := by
  have place := keeps.displayOneBased (same.position keeps)
  unfold ParseError.display
  rw [place, same.expected, same.problem]
  match first.next, second.next, same.next with
  | _, _, .some next => simp only [next.kind]
  | _, _, .none => rfl

theorem atInvalidToken (same : matching.ParseErrors first second) :
    Diagnostic.atInvalidToken first = Diagnostic.atInvalidToken second := by
  unfold Diagnostic.atInvalidToken Token.isInvalid
  match first.next, second.next, same.next with
  | _, _, .some next => simp only [Option.any_some, next.kind]
  | _, _, .none => rfl

end ParseErrors

theorem LexErrors.diagnostic {first second : LexError} (same : matching.LexErrors first second) :
    matching.Diagnostics (.ofLexError first) (.ofLexError second) := by
  unfold Diagnostic.ofLexError
  rw [same.problem]
  exact ⟨same.span, rfl, rfl, rfl⟩

theorem ParseErrors.diagnostic {first second : ParseError}
    (same : matching.ParseErrors first second) (keeps : matching.KeepsLines) :
    matching.Diagnostics (.ofParseError first) (.ofParseError second) := by
  unfold Diagnostic.ofParseError
  rw [same.problem, same.display keeps]
  exact ⟨same.span keeps, rfl, rfl, rfl⟩

theorem ResolveErrors.diagnostic {first second : ResolveError}
    (same : matching.ResolveErrors first second) (keeps : matching.KeepsLines) :
    matching.Diagnostics (.ofResolveError first) (.ofResolveError second) := by
  have spans := same.span
  cases same with
  | duplicate _ firsts =>
      refine ⟨spans, rfl, ?_, rfl⟩
      simp only [Diagnostic.ofResolveError, ResolveError.message,
        keeps.displayOneBased firsts.start]
  | unresolved _ => exact ⟨spans, rfl, rfl, rfl⟩

theorem Diagnostics.precedes {left left' right right' : Diagnostic}
    (lefts : matching.Diagnostics left left') (rights : matching.Diagnostics right right') :
    left.precedes right = left'.precedes right' := by
  rw [Diagnostic.precedes, Diagnostic.precedes, matching.compare lefts.span.start rights.span.start,
    lefts.severity, rights.severity]

theorem collect_corresponds (keeps : matching.KeepsLines) {lex lex' : List LexError}
    {parse parse' : List ParseError} {resolve resolve' : List ResolveError}
    (lexes : List.Forall₂ matching.LexErrors lex lex')
    (parses : List.Forall₂ matching.ParseErrors parse parse')
    (resolves : List.Forall₂ matching.ResolveErrors resolve resolve') :
    List.Forall₂ matching.Diagnostics (Diagnostic.collect lex parse resolve)
      (Diagnostic.collect lex' parse' resolve') := by
  have reported := List.rel_filter (p := fun error => !Diagnostic.atInvalidToken error)
    (q := fun error => !Diagnostic.atInvalidToken error)
    (fun error error' same => by simp only [same.atInvalidToken]) parses
  refine mergeSort_rel _ _ (fun _ _ _ _ left right => left.precedes right) ?_
  refine List.rel_append (List.rel_append ?_ ?_) ?_
  · exact List.rel_map (fun _ _ same => same.diagnostic) lexes
  · exact List.rel_map (fun _ _ same => same.diagnostic keeps) reported
  · exact List.rel_map (fun _ _ same => same.diagnostic keeps) resolves

/-- Scripts with corresponding tokens have corresponding diagnostics. -/
theorem diagnostics_correspond (keeps : matching.KeepsLines) {source source' : List Char}
    (same : List.Forall₂ (matching.Readable source source') (Token.ofText source)
      (Token.ofText source')) (options : AnalysisOptions) :
    List.Forall₂ matching.Diagnostics (Analysis.ofText source options).diagnostics
      (Analysis.ofText source' options).diagnostics := by
  obtain ⟨documents, errors⟩ := ofTokens_corresponds same keeps.origin
  have resolved := resolution_corresponds documents options.builtins options.reportUnresolved
  refine collect_corresponds keeps ?_ errors resolved.errors
  exact List.rel_filterMap (fun _ _ here => ofToken?_corresponds here.toTokens) same

end Correspondence

end NovelScript
