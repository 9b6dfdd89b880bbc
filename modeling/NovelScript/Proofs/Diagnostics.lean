import NovelScript.Proofs.Lookaheads
import NovelScript.Proofs.Mentions
import NovelScript.Proofs.Position
import NovelScript.Analysis

/-!
# Diagnostics of a script

The diagnostics of a script are the errors of all its stages in order.  Only a parse error in front
of an invalid token is left out, and that token has a lexical error of its own, so that no script
with errors is left without one.  Errors that come from elsewhere are left out in the same way,
whether or not a lexical error tells of the token.
-/

namespace NovelScript

namespace Diagnostic

/-- Diagnostics go by their starts, and those with the same start by their severities. -/
structure InOrder (left right : Diagnostic) : Prop where
  starts : left.span.start.precedes right.span.start = true
  severities : left.span.start = right.span.start → left.severity.rank ≤ right.severity.rank

theorem precedes_iff {left right : Diagnostic} :
    left.precedes right = true ↔ InOrder left right := by
  have order : InOrder left right ↔ left.span.start.precedes right.span.start = true ∧
      (left.span.start = right.span.start → left.severity.rank ≤ right.severity.rank) :=
    ⟨fun order => ⟨order.starts, order.severities⟩, fun order => ⟨order.1, order.2⟩⟩
  rw [order, ← Position.compare_eq_iff, precedes, Position.precedes]
  cases left.span.start.compare right.span.start with
  | lt => simp
  | gt => simp
  | eq => simp [Nat.compare_ne_gt]

theorem precedes_trans (one two three : Diagnostic) (first : one.precedes two = true)
    (second : two.precedes three = true) : one.precedes three = true := by
  rw [precedes_iff] at *
  refine ⟨Position.precedes_trans first.starts second.starts, fun same => ?_⟩
  have middle : one.span.start = two.span.start :=
    Position.precedes_antisymm first.starts (same ▸ second.starts)
  exact Nat.le_trans (first.severities middle) (second.severities (middle.symm.trans same))

theorem precedes_total (left right : Diagnostic) :
    (left.precedes right || right.precedes left) = true := by
  rw [Bool.or_eq_true, precedes_iff, precedes_iff]
  by_cases same : left.span.start = right.span.start
  · have start := Position.precedes_total left.span.start left.span.start
    rw [Bool.or_self] at start
    rcases Nat.le_total left.severity.rank right.severity.rank with graver | lighter
    · exact .inl ⟨same ▸ start, fun _ => graver⟩
    · exact .inr ⟨same ▸ start, fun _ => lighter⟩
  · have starts := Position.precedes_total left.span.start right.span.start
    rw [Bool.or_eq_true] at starts
    exact starts.imp (⟨·, fun equal => absurd equal same⟩)
      (⟨·, fun equal => absurd equal.symm same⟩)

/-- Diagnostics are put in order, and none is lost or made up. -/
theorem collect_inOrder (lexErrors : List LexError) (parseErrors : List ParseError)
    (resolveErrors : List ResolveError) :
    (collect lexErrors parseErrors resolveErrors).Pairwise InOrder ∧
      (collect lexErrors parseErrors resolveErrors).Perm
        (lexErrors.map ofLexError ++
          (parseErrors.filter fun error => !error.next.any Token.isInvalid).map ofParseError ++
          resolveErrors.map ofResolveError) :=
  ⟨(List.pairwise_mergeSort precedes_trans precedes_total _).imp precedes_iff.1,
    List.mergeSort_perm ..⟩

theorem ofResolveError_isError (error : ResolveError) :
    (ofResolveError error).isError = error.isDuplicate := by
  cases error <;> rfl

variable {lexErrors : List LexError} {parseErrors : List ParseError}
  {resolveErrors : List ResolveError}

theorem mem_collect {diagnostic : Diagnostic} :
    diagnostic ∈ collect lexErrors parseErrors resolveErrors ↔
      (∃ error ∈ lexErrors, ofLexError error = diagnostic) ∨
      (∃ error ∈ parseErrors, error.next.any Token.isInvalid = false ∧
        ofParseError error = diagnostic) ∨
      ∃ error ∈ resolveErrors, ofResolveError error = diagnostic := by
  rw [(collect_inOrder lexErrors parseErrors resolveErrors).2.mem_iff]
  simp only [List.mem_append, List.mem_map, List.mem_filter, Bool.not_eq_true', and_assoc, or_assoc]

/-- Where every parse error that is left out comes with a lexical error, no error goes unseen. -/
theorem any_isError_collect_iff (hidden : ∀ error ∈ parseErrors,
      error.next.any Token.isInvalid = true → lexErrors ≠ []) :
    (collect lexErrors parseErrors resolveErrors).any isError = true ↔
      lexErrors ≠ [] ∨ parseErrors ≠ [] ∨
        ∃ error ∈ resolveErrors, error.isDuplicate = true := by
  have lexical (some_ : lexErrors ≠ []) :
      ∃ diagnostic ∈ collect lexErrors parseErrors resolveErrors, diagnostic.isError = true := by
    obtain ⟨error, member⟩ := List.exists_mem_of_ne_nil _ some_
    exact ⟨ofLexError error, mem_collect.2 (.inl ⟨error, member, rfl⟩), rfl⟩
  rw [List.any_eq_true]
  constructor
  · rintro ⟨diagnostic, member, grave⟩
    rcases mem_collect.1 member with
      ⟨error, among, -⟩ | ⟨error, among, -, -⟩ | ⟨error, among, rfl⟩
    · exact .inl (List.ne_nil_of_mem among)
    · exact .inr (.inl (List.ne_nil_of_mem among))
    · exact .inr (.inr ⟨error, among, ofResolveError_isError error ▸ grave⟩)
  · rintro (some_ | some_ | ⟨error, among, duplicate⟩)
    · exact lexical some_
    · obtain ⟨error, among⟩ := List.exists_mem_of_ne_nil _ some_
      cases dropped : error.next.any Token.isInvalid with
      | true => exact lexical (hidden error among dropped)
      | false =>
          exact ⟨ofParseError error,
            mem_collect.2 (.inr (.inl ⟨error, among, dropped, rfl⟩)), rfl⟩
    · exact ⟨ofResolveError error, mem_collect.2 (.inr (.inr ⟨error, among, rfl⟩)),
        (ofResolveError_isError error).trans duplicate⟩

/-- A parse error in front of an invalid token of which one of the lexical errors tells. -/
def atReportedToken (lexErrors : List LexError) (error : ParseError) : Bool :=
  error.next.any fun token =>
    token.isInvalid && lexErrors.any fun lexical => lexical.span == token.span

theorem atInvalidToken_of_atReportedToken {error : ParseError}
    (reported : atReportedToken lexErrors error = true) : atInvalidToken error = true := by
  obtain ⟨token, next, invalid⟩ := (Option.any_eq_true ..).1 reported
  exact (Option.any_eq_true ..).2 ⟨token, next, (Bool.and_eq_true_iff.1 invalid).1⟩

/-- Parse errors are left out for their tokens alone, so that as many as should are left only
where a lexical error tells of each such token. -/
theorem filter_atReportedToken_perm_iff :
    ((parseErrors.filter fun error => !atInvalidToken error).map ofParseError).Perm
        ((parseErrors.filter fun error => !atReportedToken lexErrors error).map ofParseError) ↔
      ∀ error ∈ parseErrors, atInvalidToken error = true →
        atReportedToken lexErrors error = true := by
  have kept : (parseErrors.filter fun error => !atInvalidToken error).Sublist
      (parseErrors.filter fun error => !atReportedToken lexErrors error) :=
    List.monotone_filter_right _ fun error stays => by
      have sound := @atInvalidToken_of_atReportedToken lexErrors error
      cases reported : atReportedToken lexErrors error with
      | true => simp [sound reported] at stays
      | false => rfl
  constructor
  · intro perm error member invalid
    have same := kept.eq_of_length (by simpa using perm.length_eq)
    cases reported : atReportedToken lexErrors error with
    | true => rfl
    | false =>
        have among : error ∈ parseErrors.filter fun error => !atInvalidToken error :=
          same ▸ List.mem_filter.2 ⟨member, by simp [reported]⟩
        exact absurd invalid (by simpa using (List.mem_filter.1 among).2)
  · intro told
    refine .of_eq (congrArg _ (List.filter_congr fun error member => congrArg _ ?_))
    exact Bool.eq_iff_iff.2 ⟨told error member, atInvalidToken_of_atReportedToken⟩

/-- Diagnostics of one start and severity stay in the order of the stages and of their errors.
All errors but those in front of reported tokens appear once each if and only if a lexical error
tells of every invalid token in front of which a parse error lies. -/
theorem collect_complete_iff (lexErrors : List LexError) (parseErrors : List ParseError)
    (resolveErrors : List ResolveError) :
    (collect lexErrors parseErrors resolveErrors).Pairwise InOrder ∧
      (∀ run : List Diagnostic, run.Pairwise InOrder → run.Sublist
          (lexErrors.map ofLexError ++
            (parseErrors.filter fun error => !atInvalidToken error).map ofParseError ++
            resolveErrors.map ofResolveError) →
        run.Sublist (collect lexErrors parseErrors resolveErrors)) ∧
      (collect lexErrors parseErrors resolveErrors).Perm
        (lexErrors.map ofLexError ++
          (parseErrors.filter fun error => !atInvalidToken error).map ofParseError ++
          resolveErrors.map ofResolveError) ∧
      ((collect lexErrors parseErrors resolveErrors).Perm
          (lexErrors.map ofLexError ++
            (parseErrors.filter fun error => !atReportedToken lexErrors error).map ofParseError ++
            resolveErrors.map ofResolveError) ↔
        ∀ error ∈ parseErrors, atInvalidToken error = true →
          atReportedToken lexErrors error = true) := by
  obtain ⟨inOrder, perm⟩ := collect_inOrder lexErrors parseErrors resolveErrors
  refine ⟨inOrder, fun run sorted among => ?_, perm, ?_⟩
  · exact List.sublist_mergeSort precedes_trans precedes_total
      (sorted.imp precedes_iff.2) among
  · rw [← filter_atReportedToken_perm_iff]
    constructor
    · intro complete
      exact (List.perm_append_left_iff _).1
        ((List.perm_append_right_iff _).1 (perm.symm.trans complete))
    · exact fun same => perm.trans ((same.append_left _).append_right _)

private def strayError : ParseError :=
  ⟨.unexpectedToken, none, some { kind := .invalid, span := ⟨⟨0, 0, 0⟩, ⟨0, 1, 1⟩⟩ }, []⟩

/-- Without its lexical error a parse error in front of an invalid token is told of nowhere. -/
theorem strayError_untold :
    atReportedToken [] strayError = false ∧
      ofParseError strayError ∉ collect [] [strayError] [] := by
  have nothing : collect [] [strayError] [] = [] := by
    simp [collect, atInvalidToken, strayError, Token.isInvalid]
  exact ⟨by decide, nothing ▸ List.not_mem_nil⟩

end Diagnostic

/-- An invalid token has a lexical error at its place. -/
theorem TokenStream.lexError_of_isInvalid {stream : TokenStream} {token : Token}
    (member : token ∈ stream) (invalid : token.isInvalid = true) :
    ∃ error ∈ lexErrors stream, error.span = token.span :=
  ⟨_, List.mem_filterMap.2 ⟨token, member, by simp [LexError.ofToken?, invalid]; rfl⟩, rfl⟩

namespace Analysis

/-- A parse error in front of an invalid token lies where that token's lexical error lies. -/
theorem ofText_lexError_of_isInvalid {source : List Char} {options : AnalysisOptions}
    {error : ParseError} (member : error ∈ (ofText source options).parseErrors)
    (dropped : error.next.any Token.isInvalid = true) :
    ∃ lexical ∈ (ofText source options).lexErrors, lexical.span = error.span := by
  obtain ⟨token, next, invalid⟩ := (Option.any_eq_true ..).1 dropped
  have seen := Document.ofTokens_lookaheads source (Token.ofText source) error member token next
  obtain ⟨lexical, among, same⟩ := TokenStream.lexError_of_isInvalid seen invalid
  exact ⟨lexical, among, by simp [same, ParseError.span, next]⟩

/-- The diagnostics of a script are the errors of all its stages, less those parse errors whose
place a lexical error has already; so a script without a grave diagnostic has no error but for
names that mean nothing. -/
theorem ofText_diagnostics (source : List Char) (options : AnalysisOptions) :
    (ofText source options).diagnostics.Pairwise Diagnostic.InOrder ∧
      (ofText source options).diagnostics.Perm
        ((ofText source options).lexErrors.map Diagnostic.ofLexError ++
          ((ofText source options).parseErrors.filter
            fun error => !error.next.any Token.isInvalid).map Diagnostic.ofParseError ++
          (ofText source options).resolveErrors.map Diagnostic.ofResolveError) ∧
      (∀ error ∈ (ofText source options).parseErrors, error.next.any Token.isInvalid = true →
        ∃ lexical ∈ (ofText source options).lexErrors, lexical.span = error.span ∧
          Diagnostic.ofLexError lexical ∈ (ofText source options).diagnostics) ∧
      ((ofText source options).hasErrors = true ↔
        (ofText source options).lexErrors ≠ [] ∨ (ofText source options).parseErrors ≠ [] ∨
          ∃ error ∈ (ofText source options).resolveErrors, error.isDuplicate = true) := by
  have hidden := fun error => @ofText_lexError_of_isInvalid source options error
  obtain ⟨inOrder, perm⟩ := Diagnostic.collect_inOrder (ofText source options).lexErrors
    (ofText source options).parseErrors (ofText source options).resolveErrors
  refine ⟨inOrder, perm, fun error member dropped => ?_,
    Diagnostic.any_isError_collect_iff fun error member dropped => ?_⟩
  · obtain ⟨lexical, among, same⟩ := hidden error member dropped
    exact ⟨lexical, among, same, Diagnostic.mem_collect.2 (.inl ⟨lexical, among, rfl⟩)⟩
  · obtain ⟨lexical, among, -⟩ := hidden error member dropped
    exact List.ne_nil_of_mem among

private def stray : List Char := "jump ?\n".toList

/-- Both parse errors at a stray character give way to its lexical error. -/
theorem stray_diagnostics :
    ∃ error ∈ (ofText stray {}).parseErrors, error.next.any Token.isInvalid = true ∧
      (∃ lexical ∈ (ofText stray {}).lexErrors, lexical.span = error.span ∧
        Diagnostic.ofLexError lexical ∈ (ofText stray {}).diagnostics) ∧
      (ofText stray {}).hasErrors = true := by
  have dropped : ∃ error ∈ (ofText stray {}).parseErrors,
      error.next.any Token.isInvalid = true := by decide +kernel
  obtain ⟨error, member, invalid⟩ := dropped
  obtain ⟨-, -, hidden, grave⟩ := ofText_diagnostics stray {}
  exact ⟨error, member, invalid, hidden error member invalid,
    grave.2 (.inr (.inl (List.ne_nil_of_mem member)))⟩

end Analysis

end NovelScript
