import NovelScript.Proofs.Journeys

/-!
# Lookaheads

However a cursor gets through a stream, the tokens in front of it are tokens of the stream, and so
is the lookahead of every error that it records on the way.
-/

namespace NovelScript

open Grammar

namespace Cursor

/-- A cursor that has only tokens of a stream in front of it, and in front of its errors. -/
structure Sees (stream : List Token) (cursor : Cursor) : Prop where
  upcoming : ∀ token ∈ cursor.upcoming, token ∈ stream
  lookaheads : ∀ error ∈ cursor.errors, ∀ token ∈ error.next, token ∈ stream

namespace Sees

variable {stream : List Token} {cursor behind : Cursor}

theorem shift (sees : cursor.Sees stream) {token : Token} {rest : List Token}
    (next : cursor.upcoming = token :: rest) : (cursor.shift token rest).Sees stream :=
  ⟨fun other member => sees.upcoming other (next ▸ List.mem_cons_of_mem token member),
    sees.lookaheads⟩

theorem record (sees : cursor.Sees stream) (problem : ParseProblem) (expected : List Kind) :
    (cursor.record problem expected).Sees stream := by
  refine ⟨sees.upcoming, fun error member token found => ?_⟩
  rcases List.mem_append.1 member with before | last
  · exact sees.lookaheads error before token found
  · obtain rfl := List.mem_singleton.1 last
    exact sees.upcoming token (List.mem_of_mem_head? found)

/-- On a journey nothing is seen but the tokens of the stream. -/
theorem of_journey (journey : Journey cursor behind) (sees : cursor.Sees stream) :
    behind.Sees stream := by
  induction journey with
  | stay => exact sees
  | take next later ih => exact ih (sees.shift next)
  | record inside later ih => exact ih (sees.record _ _)

end Sees

end Cursor

/-- The lookahead of a parse error is always a token of the script. -/
theorem Document.ofTokens_lookaheads (source : List Char) (tokens : List Token) :
    ∀ error ∈ (ofTokens source tokens).2, ∀ token ∈ error.next, token ∈ tokens := by
  have start : (Cursor.ofTokens source tokens).Sees tokens :=
    ⟨fun token member => (List.mem_filter.1 member).1, by simp [Cursor.ofTokens]⟩
  exact (start.of_journey (blockWith_journey (bodiesWithin_journey _) none _)).lookaheads

end NovelScript
