import NovelScript.Proofs.Landing

/-!
# Lines with embedded python

Python stands on a line only where the line has opened it.  The context in which a line is cut into
lexemes knows what the line has shown, so that the first visible tokens of a line tell whether there
is any python on it.
-/

namespace NovelScript

namespace Token

/-- Whether a token is a span of python, closed or not. -/
def isPython (token : Token) : Bool :=
  token.kind == .python || token.kind == .invalid && token.wrapped == some .python

def NoPython (tokens : List Token) : Prop := ∀ token ∈ tokens, token.isPython = false

theorem noPython_cons {token : Token} {tokens : List Token} :
    NoPython (token :: tokens) ↔ token.isPython = false ∧ NoPython tokens := by
  simp [NoPython]

end Token

open Token

namespace LineContext

/-- Whether tokens may be the rest of a line in a context. -/
def Allows : LineContext → List Token → Prop
  | .start, [] => True
  | .start, first :: others =>
      first.kind ∈ [.keyword .define, .keyword .default, .punctuation .dollar] ∨
        first.kind ∈ [.keyword .jump, .keyword .call] ∧
            (∃ second ∈ others.head?, second.kind = .keyword .expression) ∨
          NoPython (first :: others)
  | .awaitingAssignment, _ => True
  | .awaitingTarget, others =>
      (∃ second ∈ others.head?, second.kind = .keyword .expression) ∨ NoPython others
  | .rest, others => NoPython others

theorem allows_nil (context : LineContext) : context.Allows [] := by
  cases context with
  | start => trivial
  | awaitingAssignment => trivial
  | awaitingTarget => exact .inr (by simp [NoPython])
  | rest => simp [Allows, NoPython]

theorem allows_cons {context : LineContext} {token : Token} {others : List Token}
    (plain : token.isPython = false) (closed : (context.next token.kind).2 = none)
    (newline : token.kind ≠ .newline) (visible : token.kind.isTrivia = false)
    (allows : (context.next token.kind).1.Allows others) : context.Allows (token :: others) := by
  cases context with
  | awaitingAssignment => trivial
  | rest =>
      have same : (LineContext.rest.next token.kind).1 = .rest := by
        unfold next
        split <;> simp_all
      rw [same] at allows
      exact noPython_cons.2 ⟨plain, allows⟩
  | awaitingTarget =>
      by_cases computed : token.kind = .keyword .expression
      · simp [computed, next] at closed
      · have same : (LineContext.awaitingTarget.next token.kind).1 = .rest := by
          unfold next
          split <;> simp_all [Kind.isTrivia]
        rw [same] at allows
        exact .inr (noPython_cons.2 ⟨plain, allows⟩)
  | start =>
      by_cases binds : token.kind ∈ [.keyword .define, .keyword .default, .punctuation .dollar]
      · exact .inl binds
      by_cases aims : token.kind ∈ [.keyword .jump, .keyword .call]
      · have same : (LineContext.start.next token.kind).1 = .awaitingTarget := by
          simp only [List.mem_cons, List.not_mem_nil, or_false] at aims
          rcases aims with jump | call
          · rw [jump, next]
          · rw [call, next]
        rw [same] at allows
        rcases allows with computed | none
        · exact .inr (.inl ⟨aims, computed⟩)
        · exact .inr (.inr (noPython_cons.2 ⟨plain, none⟩))
      · have same : (LineContext.start.next token.kind).1 = .rest := by
          unfold next
          split <;> simp_all [Kind.isTrivia]
        rw [same] at allows
        exact .inr (.inr (noPython_cons.2 ⟨plain, allows⟩))

theorem allows_of_mode {context : LineContext} {token : Token} {mode : PythonMode}
    (opens : (context.next token.kind).2 = some mode) :
    (∀ others, context.Allows (token :: others)) ∧ token.kind ≠ .newline ∧
      token.kind.isTrivia = false := by
  cases context with
  | start =>
      have same : token.kind = .punctuation .dollar := by
        unfold next at opens
        split at opens <;> simp_all
      exact ⟨fun _ => .inl (by simp [same]), by simp [same], by simp [same, Kind.isTrivia]⟩
  | awaitingAssignment =>
      refine ⟨fun _ => trivial, ?_, ?_⟩
      · intro newline
        simp [newline, next] at opens
      · unfold next at opens
        split at opens <;> simp_all [Kind.isTrivia]
  | awaitingTarget =>
      have same : token.kind = .keyword .expression := by
        unfold next at opens
        split at opens <;> simp_all
      refine ⟨fun _ => .inl ⟨token, rfl, same⟩, by simp [same], by simp [same, Kind.isTrivia]⟩
  | rest =>
      unfold next at opens
      split at opens <;> simp_all

theorem allows_of_trivia {context : LineContext} {kind : Kind} {others : List Token}
    (trivia : kind.isTrivia = true) (allows : (context.next kind).1.Allows others) :
    context.Allows others := by
  have kinds : kind = .whitespace ∨ kind = .comment := by
    cases kind <;> simp_all [Kind.isTrivia]
  rcases kinds with rfl | rfl
  · cases context <;> exact allows
  · cases context with
    | awaitingTarget => exact .inr allows
    | _ => exact allows

end LineContext

/-! ## All lines -/

/-- Whether visible tokens may be what is left of a line in a context, with further lines behind. -/
def AllowedLines (context : LineContext) (tokens : List Token) : Prop :=
  context.Allows (tokens.takeWhile (·.kind != .newline)) ∧
    ∀ line ∈ Line.ofTokens (tokens.dropWhile (·.kind != .newline)),
      LineContext.start.Allows line.tokens

theorem AllowedLines.of_start {tokens : List Token} (allowed : AllowedLines .start tokens) :
    ∀ line ∈ Line.ofTokens tokens, LineContext.start.Allows line.tokens := by
  obtain ⟨here, later⟩ := allowed
  cases tokens with
  | nil => simp
  | cons first rest =>
      by_cases newline : first.kind = .newline
      · simpa [newline] using later
      · rw [Line.ofTokens, if_neg newline]
        intro line member
        rcases List.mem_cons.1 member with rfl | member
        · simpa [newline, Line.tokens] using here
        · exact later line (by simpa [newline] using member)

private theorem AllowedLines.newline {context : LineContext} {token : Token} {tokens : List Token}
    (newline : token.kind = .newline) (allowed : AllowedLines .start tokens) :
    AllowedLines context (token :: tokens) := by
  have others := allowed.of_start
  refine ⟨by simpa [newline] using context.allows_nil, ?_⟩
  simpa [newline, Line.ofTokens_newline newline] using others

private theorem AllowedLines.cons {context behind : LineContext} {token : Token}
    {tokens : List Token} (other : token.kind ≠ .newline)
    (step : ∀ others, behind.Allows others → context.Allows (token :: others))
    (allowed : AllowedLines behind tokens) : AllowedLines context (token :: tokens) := by
  refine ⟨?_, ?_⟩
  · simpa [other] using step _ allowed.1
  · simpa [other] using allowed.2

private theorem AllowedLines.embedded {context following : LineContext} {token : Token}
    {spans tokens : List Token} (other : token.kind ≠ .newline)
    (anything : ∀ others, context.Allows (token :: others))
    (inside : ∀ span ∈ spans, span.kind ≠ .newline) (allowed : AllowedLines following tokens) :
    AllowedLines context (token :: (spans ++ tokens)) := by
  have within (span : Token) (member : span ∈ spans) : (span.kind != .newline) = true := by
    simpa using inside span member
  refine ⟨?_, ?_⟩
  · simpa [other] using anything _
  · simpa [other, List.dropWhile_append_of_pos within] using allowed.2

namespace Lexeme

theorem core_not_python (first : Char) (rest : List Char) :
    (core first rest).1.kind ≠ .python ∧ (core first rest).1.wrapped ≠ some .python := by
  obtain ⟨python, none | ⟨-, text⟩⟩ := classify_kinds first rest
  · exact ⟨python, by simp [core, none]⟩
  · exact ⟨python, by simp [core, text]⟩

theorem python_within_line {mode : PythonMode} {text : List Char} {lexeme : Lexeme}
    (member : lexeme ∈ (python mode text).1) : lexeme.kind ≠ .newline := by
  have blank {text : List Char} (member : lexeme ∈ blanks text) : lexeme.kind ≠ .newline := by
    cases text with
    | nil => simp [blanks] at member
    | cons first rest =>
        simp only [blanks, List.mem_singleton] at member
        simp [member]
  unfold python at member
  dsimp only at member
  split at member
  · rcases List.mem_append.1 member with before | body
    · exact blank before
    · simp only [List.mem_singleton] at body
      simp [body, unclosed]
  · exact blank member
  · rcases List.mem_append.1 member with before | body
    · exact blank before
    · simp only [List.mem_singleton] at body
      simp [body]

theorem fromContext_allowed (context : LineContext) (text : List Char) (position : Position) :
    AllowedLines context
      ((place position (fromContext context text)).filter fun token => !token.kind.isTrivia) := by
  fun_induction fromContext context text generalizing position with
  | case1 context => exact ⟨by simpa [place] using context.allows_nil, by simp [place]⟩
  | case2 context first rest lexeme behind following step =>
      rename_i ih
      have further := ih (position.after lexeme.text)
      have next : context.next lexeme.kind = (following, none) := step
      rw [place]
      by_cases trivia : lexeme.kind.isTrivia = true
      · rw [List.filter_cons_of_neg (by simp [trivia])]
        refine ⟨LineContext.allows_of_trivia trivia ?_, further.2⟩
        rw [next]
        exact further.1
      rw [List.filter_cons_of_pos (by simp [trivia])]
      by_cases newline : lexeme.kind = .newline
      · have same : following = .start := by
          rw [newline] at next
          cases context <;> exact (congrArg Prod.fst next).symm
        exact .newline newline (same ▸ further)
      · refine .cons newline (fun others allows => ?_) further
        obtain ⟨kind, wrapped⟩ := core_not_python first rest
        refine LineContext.allows_cons ?_ ?_ newline (by simpa using trivia) ?_
        · simp only [isPython, Bool.or_eq_false_iff, Bool.and_eq_false_iff, beq_eq_false_iff_ne]
          exact ⟨kind, .inr wrapped⟩
        · rw [next]
        · rw [next]
          exact allows
  | case3 context first rest lexeme behind following mode step =>
      rename_i ih
      have next : context.next lexeme.kind = (following, some mode) := step
      -- The line goes on behind the spans in the context that their opener leads to.
      let token : Token :=
        ⟨lexeme.kind, ⟨position, position.after lexeme.text⟩, lexeme.wrapped⟩
      have opens : (context.next token.kind).2 = some mode := congrArg Prod.snd next
      obtain ⟨anything, newline, visible⟩ := LineContext.allows_of_mode opens
      rw [place, List.filter_cons_of_pos (by simpa using visible), place_append,
        List.filter_append]
      refine .embedded newline anything ?_ (ih _)
      intro span member
      obtain ⟨other, found, same, -⟩ := exists_lexeme_of_mem_place (List.mem_filter.1 member).1
      rw [same]
      exact python_within_line found

end Lexeme

/-- Python stands only on the lines of a script that open it. -/
theorem Line.allows_of_mem {source : List Char} {line : Line}
    (member : line ∈ Line.ofTokens (Token.visible source)) :
    LineContext.start.Allows line.tokens :=
  (Lexeme.fromContext_allowed .start source .origin).of_start line member

end NovelScript
