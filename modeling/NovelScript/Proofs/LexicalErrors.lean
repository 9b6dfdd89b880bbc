import NovelScript.Proofs.LineLexemes
import NovelScript.Proofs.PythonContexts

/-!
# Lexical errors

A string or a span of python that is not closed takes all the rest of its script, so that there is
at most one of them, at the very end.  Any other invalid token is a single character.  The lexical
errors of a script are its invalid tokens.
-/

namespace NovelScript

open Text

/-! ## Unclosed lexemes -/

namespace Lexeme

/-- A lexeme that was read to its end; an invalid one is a character that starts no lexeme. -/
structure Closed (lexeme : Lexeme) : Prop where
  wraps : lexeme.wrapped = none
  single : lexeme.kind = .invalid → ∃ character, lexeme.text = [character]

structure Unclosed (lexeme : Lexeme) : Prop where
  invalid : lexeme.kind = .invalid
  wraps : lexeme.wrapped = some (.literal .string) ∨ lexeme.wrapped = some .python

/-- An invalid core lexeme is an unclosed string or has nothing behind its first character. -/
private theorem classify_invalid (first : Char) (rest : List Char) :
    (classify first rest).1 = .invalid →
      (classify first rest).2.1 = some (.literal .string) ∨ (classify first rest).2.2 = 0 := by
  have legible {kind : Kind} (same : kind.isLegible = true) : kind ≠ .invalid := by
    rintro rfl
    cases same
  unfold classify
  split
  · simp
  split
  · simp
  split
  · split
    · simp
    · exact fun _ => .inr rfl
  split
  · simp
  split
  · exact fun invalid => absurd invalid (legible (wordKind_isLegible _))
  split
  · exact fun invalid => absurd invalid (legible (number_isLegible rest))
  dsimp only
  split
  · split
    · simp
    · exact fun _ => .inl rfl
  · split
    · next found => exact fun invalid => absurd invalid (legible (symbol?_isLegible found))
    · exact fun _ => .inr rfl

/-- Core lexemes are closed, but for a string that takes all the rest. -/
theorem core_cases (first : Char) (rest : List Char) :
    (core first rest).1.Closed ∨ (core first rest).1.Unclosed ∧ (core first rest).2 = [] := by
  rcases (classify_kinds first rest).2 with none | ⟨invalid, string⟩
  · refine .inl ⟨none, fun invalid => ⟨first, ?_⟩⟩
    rcases classify_invalid first rest invalid with string | alone
    · simp [none] at string
    · simp [core, alone]
  · have open_ : (core first rest).1.wrapped ≠ none := by simp [core, string]
    exact .inr ⟨⟨invalid, .inl string⟩, (core_unclosed open_).2⟩

/-- Lexemes of which the last one only may be unclosed. -/
def ClosedButLast (lexemes : List Lexeme) : Prop :=
  ∃ closed last, lexemes = closed ++ Option.toList last ∧ (∀ lexeme ∈ closed, lexeme.Closed) ∧
    ∀ lexeme ∈ last, lexeme.Unclosed

theorem ClosedButLast.append {first second : List Lexeme} (all : ∀ lexeme ∈ first, lexeme.Closed)
    (rest : ClosedButLast second) : ClosedButLast (first ++ second) := by
  obtain ⟨closed, last, rfl, others, open_⟩ := rest
  refine ⟨first ++ closed, last, (List.append_assoc ..).symm, fun lexeme member => ?_, open_⟩
  exact (List.mem_append.1 member).elim (all lexeme) (others lexeme)

theorem ClosedButLast.cons {lexeme : Lexeme} {rest : List Lexeme} (closed : lexeme.Closed)
    (others : ClosedButLast rest) : ClosedButLast (lexeme :: rest) :=
  .append (by simpa using closed : ∀ other ∈ [lexeme], other.Closed) others

theorem ClosedButLast.last {lexeme : Lexeme} (open_ : lexeme.Unclosed) :
    ClosedButLast [lexeme] := by
  refine ⟨[], some lexeme, rfl, by simp, fun other same => ?_⟩
  cases same
  exact open_

private theorem blanks_closed {text : List Char} : ∀ lexeme ∈ blanks text, lexeme.Closed := by
  intro lexeme member
  cases text with
  | nil => simp [blanks] at member
  | cons first rest =>
      obtain rfl := List.mem_singleton.1 member
      exact ⟨rfl, by simp⟩

/-- Embedded python is closed, but for a span that takes all the rest. -/
theorem python_cases (mode : PythonMode) (text : List Char) :
    (∀ lexeme ∈ (python mode text).1, lexeme.Closed) ∨
      ClosedButLast (python mode text).1 ∧ (python mode text).2 = [] := by
  unfold python
  dsimp only
  split
  · exact .inr ⟨.append blanks_closed (.last ⟨rfl, .inr rfl⟩), rfl⟩
  · exact .inl blanks_closed
  · refine .inl fun lexeme member => ?_
    rcases List.mem_append.1 member with blank | span
    · exact blanks_closed lexeme blank
    · obtain rfl := List.mem_singleton.1 span
      exact ⟨rfl, by simp⟩

theorem fromContext_closedButLast (context : LineContext) (text : List Char) :
    ClosedButLast (fromContext context text) := by
  fun_induction fromContext context text with
  | case1 => exact ⟨[], none, rfl, by simp, by simp⟩
  | case2 context first rest head behind following step ih =>
      rcases core_cases first rest with closed | ⟨open_, all⟩
      · exact .cons closed ih
      · rw [show behind = [] from all, fromContext]
        exact .last open_
  | case3 context first rest head behind following mode step ih =>
      have opens : head.kind ≠ .invalid := by
        intro invalid
        rw [invalid] at step
        cases context <;> simp [LineContext.next] at step
      have closed : head.Closed :=
        (core_cases first rest).resolve_right fun open_ => opens open_.1.invalid
      refine .cons closed ?_
      rcases python_cases mode behind with others | ⟨others, all⟩
      · exact .append others ih
      · rw [all, fromContext, List.append_nil]
        exact others

end Lexeme

/-! ## Invalid tokens -/

namespace TokenStream

/-- The lexical errors of a stream are its invalid tokens. -/
theorem lexErrors_span (stream : TokenStream) :
    stream.lexErrors.map LexError.span = (stream.filter Token.isInvalid).map Token.span := by
  induction stream with
  | nil => rfl
  | cons token rest ih =>
      cases invalid : token.isInvalid <;>
        simpa [lexErrors, LexError.ofToken?, invalid] using ih

end TokenStream

namespace Token

/-- A token that was read to its end; an invalid one lies on a single character. -/
structure Closed (source : List Char) (token : Token) : Prop where
  wraps : token.wrapped = none
  single : token.isInvalid = true → ∃ character, token.span.textIn source = [character]

/-- An invalid token that runs to the end of its script. -/
structure Unclosed (source : List Char) (token : Token) : Prop where
  invalid : token.kind = .invalid
  wraps : token.wrapped = some (.literal .string) ∨ token.wrapped = some .python
  ends : token.stop.offset = byteLength source

/-- The tokens of a script are closed, but for the last one. -/
theorem ofText_closedButLast (source : List Char) :
    ∃ closed last, ofText source = closed ++ Option.toList last ∧
      (∀ token ∈ closed, token.Closed source) ∧ ∀ token ∈ last, token.Unclosed source := by
  obtain ⟨closed, last, lexemes, all, open_⟩ :=
    Lexeme.fromContext_closedButLast .start source
  have tokens : ofText source = place .origin closed ++
      place (Position.origin.after (Lexeme.joined closed)) last.toList := by
    rw [← place_append, ← lexemes]
    rfl
  have single (token : Token) (member : token ∈ place .origin closed) :
      token.Closed source := by
    obtain ⟨lexeme, found, -, wrapped⟩ := exists_lexeme_of_mem_place member
    have wraps : token.wrapped = none := wrapped.trans (all lexeme found).wraps
    refine ⟨wraps, fun invalid => ?_⟩
    obtain ⟨first, own, second, split, source_, rfl⟩ :=
      exists_split_of_mem_ofText (tokens ▸ List.mem_append_left _ member)
    have among : own ∈ closed ++ last.toList := by
      rw [← lexemes, show Lexeme.fromContext .start source = _ from split]
      simp
    have inside : own.Closed := by
      rcases List.mem_append.1 among with closed | final
      · exact all own closed
      · rcases (open_ own (by simpa using final)).wraps with string | python
        · simp [string] at wraps
        · simp [python] at wraps
    obtain ⟨character, text⟩ := inside.single (by simpa [isInvalid] using invalid)
    refine ⟨character, ?_⟩
    rw [← text]
    have lies := Span.textIn_after (Lexeme.joined first) own.text (Lexeme.joined second)
    rwa [← source_] at lies
  cases last with
  | none => exact ⟨_, none, tokens, single, by simp⟩
  | some lexeme =>
      refine ⟨_, some _, tokens, single, fun token same => ?_⟩
      cases same
      obtain ⟨invalid, wraps⟩ := open_ lexeme rfl
      refine ⟨invalid, wraps, (ofText_tile source).last ?_⟩
      rw [tokens]
      simp [place]

end Token

namespace LexError

/-- An error about a single character. -/
structure IsStray (source : List Char) (error : LexError) : Prop where
  problem : error.problem = .unexpectedCharacter
  single : ∃ character, error.span.textIn source = [character]

theorem isStray_of_closed {source : List Char} {tokens : List Token}
    (all : ∀ token ∈ tokens, token.Closed source) :
    ∀ error ∈ TokenStream.lexErrors tokens, error.IsStray source := by
  intro error member
  obtain ⟨token, found, equal⟩ := List.mem_filterMap.1 member
  unfold ofToken? at equal
  split at equal
  · next invalid =>
    cases equal
    exact ⟨by simp [(all token found).wraps], (all token found).single invalid⟩
  · cases equal

end LexError

namespace Token

theorem Unclosed.lexErrors {source : List Char} {token : Token} (open_ : token.Unclosed source) :
    ∃ problem, (token.wrapped = some (.literal .string) ∧ problem = .unterminatedString ∨
        token.wrapped = some .python ∧ problem = .unterminatedExpression) ∧
      TokenStream.lexErrors [token] = [⟨problem, token.span⟩] := by
  have invalid : token.isInvalid = true := by simp [isInvalid, open_.invalid]
  rcases open_.wraps with string | python
  · refine ⟨.unterminatedString, .inl ⟨string, rfl⟩, ?_⟩
    simp [TokenStream.lexErrors, LexError.ofToken?, invalid, string]
  · refine ⟨.unterminatedExpression, .inr ⟨python, rfl⟩, ?_⟩
    simp [TokenStream.lexErrors, LexError.ofToken?, invalid, python]

/-- Lexical errors are listed in the order of their script. -/
theorem lexErrors_sorted (source : List Char) :
    (TokenStream.lexErrors (ofText source)).Pairwise fun first second =>
      first.span.start.compare second.span.start = .lt := by
  have sorted := (ofText_tile source).sorted.2.filter isInvalid
  have spans := TokenStream.lexErrors_span (ofText source)
  rw [← List.pairwise_map (f := LexError.span) (R := fun first second =>
    first.start.compare second.start = .lt), spans, List.pairwise_map]
  exact sorted.imp fun before => (Position.compare_of_offset_lt before).1

/-- At most one token of a script wraps a kind, that of a string or of python left unclosed.  It is
invalid, the last token and runs to the end of the script, and the last lexical error is about it;
all other errors are about single characters.  The errors are those of the invalid tokens, in
order. -/
theorem ofText_unclosed_last (source : List Char) :
    (ofText source).countP (·.wrapped.isSome) ≤ 1 ∧
      (∀ token ∈ ofText source, token.wrapped.isSome = true →
        token.kind = .invalid ∧ (ofText source).getLast? = some token ∧
          token.stop.offset = byteLength source ∧
          ∃ problem, (token.wrapped = some (.literal .string) ∧ problem = .unterminatedString ∨
              token.wrapped = some .python ∧ problem = .unterminatedExpression) ∧
            ∃ earlier, TokenStream.lexErrors (ofText source) = earlier ++ [⟨problem, token.span⟩] ∧
              ∀ error ∈ earlier, error.IsStray source) ∧
      ((∀ token ∈ ofText source, token.wrapped = none) →
        ∀ error ∈ TokenStream.lexErrors (ofText source), error.IsStray source) ∧
      (TokenStream.lexErrors (ofText source)).map LexError.span =
        ((ofText source).filter isInvalid).map Token.span ∧
      (TokenStream.lexErrors (ofText source)).Pairwise fun first second =>
        first.span.start.compare second.span.start = .lt := by
  obtain ⟨closed, last, tokens, all, open_⟩ := ofText_closedButLast source
  have unwrapped (token : Token) (member : token ∈ closed) : token.wrapped.isSome = false := by
    rw [(all token member).wraps]
    rfl
  have none_ : closed.countP (·.wrapped.isSome) = 0 := by
    simpa [List.countP_eq_zero] using unwrapped
  refine ⟨?_, ?_, ?_, TokenStream.lexErrors_span _, lexErrors_sorted source⟩
  · rw [tokens, List.countP_append, none_, Nat.zero_add]
    refine List.countP_le_length.trans ?_
    cases last <;> simp
  · intro token member wraps
    rw [tokens] at member ⊢
    rcases List.mem_append.1 member with before | final
    · simp [unwrapped token before] at wraps
    · obtain rfl : last = some token := by simpa using final
      obtain ⟨problem, kinds, errors⟩ := (open_ token rfl).lexErrors
      refine ⟨(open_ token rfl).invalid, by simp, (open_ token rfl).ends, problem, kinds,
        TokenStream.lexErrors closed, ?_, LexError.isStray_of_closed all⟩
      rw [← errors]
      exact List.filterMap_append
  · intro plain
    cases last with
    | none => exact LexError.isStray_of_closed (by simpa [tokens] using all)
    | some token =>
        have wraps := plain token (by simp [tokens])
        rcases (open_ token rfl).wraps with string | python
        · simp [string] at wraps
        · simp [python] at wraps

end Token

end NovelScript
