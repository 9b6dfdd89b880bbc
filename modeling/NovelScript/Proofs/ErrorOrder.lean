import NovelScript.Proofs.Chunks
import NovelScript.Proofs.Indentation

/-!
# The order of errors

An error is recorded in front of the next token, behind the last one that was taken, and no token is
ever put back.  So errors come in the order of their places among the tokens of a script, which is
the order of their positions.
-/

namespace NovelScript

/-! ## Places among tokens -/

/-- An error that was recorded behind so many tokens: it names the last of them and the next one. -/
structure ParseError.Behind (tokens : List Token) (place : Nat) (error : ParseError) : Prop where
  current : error.current = (tokens.take place).getLast?
  next : error.next = (tokens.drop place).head?

/-- Tokens one behind the other, none of them empty. -/
structure Token.Solid (tokens : List Token) : Prop where
  sorted : tokens.Pairwise fun first second => first.start.offset < second.start.offset
  longer : ∀ token ∈ tokens, token.start.offset < token.stop.offset

theorem Token.visible_solid (source : List Char) : Token.Solid (Token.visible source) :=
  ⟨Token.visible_sorted source, fun token member =>
    (Token.ofText_tile source).longer token (List.mem_filter.1 member).1⟩

namespace ParseError

variable {tokens : List Token} {place : Nat} {error : ParseError}

theorem Behind.position_of_lt (behind : error.Behind tokens place) (inside : place < tokens.length) :
    error.position = tokens[place].start := by
  have next := behind.next
  rw [List.head?_drop, List.getElem?_eq_getElem inside] at next
  rw [position, next]

theorem Behind.position_of_length (behind : error.Behind tokens tokens.length)
    (nonempty : tokens ≠ []) : error.position = (tokens.getLast nonempty).stop := by
  have next := behind.next
  have current := behind.current
  rw [List.drop_length, List.head?_nil] at next
  rw [List.take_length, List.getLast?_eq_some_getLast nonempty] at current
  rw [position, next, current]

/-- A place further on is a position further on. -/
theorem Behind.precedes {later : ParseError} {other : Nat} (solid : Token.Solid tokens)
    (one : error.Behind tokens place) (two : later.Behind tokens other) (order : place ≤ other)
    (inside : other ≤ tokens.length) : error.position.precedes later.position = true := by
  rcases Nat.eq_or_lt_of_le order with rfl | before
  · have same : error.position = later.position := by
      rw [position, position, one.next, two.next, one.current, two.current]
    rw [same, Position.precedes, Position.compare_self]
    rfl
  · have first : place < tokens.length := Nat.lt_of_lt_of_le before inside
    have nonempty : tokens ≠ [] := List.ne_nil_of_length_pos (Nat.zero_lt_of_lt first)
    have sorted := List.pairwise_iff_getElem.1 solid.sorted
    rw [Position.precedes_iff, one.position_of_lt first]
    left
    rcases Nat.lt_or_eq_of_le inside with last | rfl
    · rw [two.position_of_lt last]
      exact sorted place other first last before
    · rw [two.position_of_length nonempty]
      have longer := solid.longer _ (List.getLast_mem nonempty)
      rw [List.getLast_eq_getElem nonempty] at longer ⊢
      rcases Nat.lt_or_eq_of_le (Nat.le_sub_one_of_lt first) with earlier | rfl
      · exact Nat.lt_trans (sorted place _ first _ earlier) longer
      · exact longer

/-- Errors in the order of their places are in the order of their positions. -/
theorem pairwise_precedes {places : List Nat} {errors : List ParseError}
    (solid : Token.Solid tokens) (behind : List.Forall₂ (Behind tokens) places errors)
    (sorted : places.Pairwise (· ≤ ·)) (inside : ∀ place ∈ places, place ≤ tokens.length) :
    errors.Pairwise fun earlier later => earlier.position.precedes later.position = true := by
  have all := List.forall₂_iff_get.1 behind
  rw [List.pairwise_iff_getElem] at sorted ⊢
  intro first second one two before
  have here := all.2 first (all.1 ▸ one) one
  have there := all.2 second (all.1 ▸ two) two
  exact here.precedes solid there (sorted first second _ _ before) (inside _ (List.get_mem _ _))

end ParseError

/-! ## What a cursor has told -/

namespace Cursor

/-- A cursor that has come so far among the tokens. -/
structure Among (tokens : List Token) (cursor : Cursor) : Prop where
  upcoming : cursor.upcoming = tokens.drop cursor.consumed
  current : cursor.current = (tokens.take cursor.consumed).getLast?

/-- Errors in the order of their places, none of them in front of the first token or ahead. -/
def Tells (tokens : List Token) (cursor : Cursor) : Prop :=
  ∃ places, List.Forall₂ (ParseError.Behind tokens) places cursor.errors ∧
    places.Pairwise (· ≤ ·) ∧ ∀ place ∈ places, 0 < place ∧ place ≤ cursor.consumed

variable {tokens : List Token} {cursor first last : Cursor}

theorem Among.shift {token : Token} {rest : List Token} (among : cursor.Among tokens)
    (next : cursor.upcoming = token :: rest) : (cursor.shift token rest).Among tokens := by
  have split := among.upcoming.symm.trans next
  have inside : cursor.consumed < tokens.length := by
    by_contra outside
    rw [List.drop_eq_nil_of_le (Nat.le_of_not_lt outside)] at split
    cases split
  rw [List.drop_eq_getElem_cons inside] at split
  obtain ⟨here, later⟩ := List.cons.inj split
  refine ⟨later.symm, ?_⟩
  rw [Cursor.shift, List.take_succ_eq_append_getElem inside, List.getLast?_concat, here]

theorem Tells.record (tells : cursor.Tells tokens) (among : cursor.Among tokens)
    (begun : 0 < cursor.consumed) (problem : ParseProblem) (expected : List Kind) :
    (cursor.record problem expected).Tells tokens := by
  obtain ⟨places, behind, sorted, bounded⟩ := tells
  have here : ParseError.Behind tokens cursor.consumed
      ⟨problem, cursor.current, cursor.peek?, expected⟩ :=
    ⟨among.current, congrArg List.head? among.upcoming⟩
  refine ⟨places ++ [cursor.consumed], List.rel_append behind (.cons here .nil), ?_, ?_⟩
  · rw [List.pairwise_append]
    refine ⟨sorted, List.pairwise_singleton .., fun place member other single => ?_⟩
    rw [List.mem_singleton.1 single]
    exact (bounded place member).2
  · intro place member
    rcases List.mem_append.1 member with before | single
    · exact bounded place before
    · rw [List.mem_singleton.1 single]
      exact ⟨begun, Nat.le_refl _⟩

theorem Journey.among (journey : Journey first last) (among : first.Among tokens) :
    last.Among tokens := by
  induction journey with
  | stay => exact among
  | take next later ih => exact ih (among.shift next)
  | record inside later ih => exact ih ⟨among.upcoming, among.current⟩

/-- Behind its first token, a journey tells errors in order. -/
theorem Journey.tells (journey : Journey first last) (among : first.Among tokens)
    (begun : 0 < first.consumed) (tells : first.Tells tokens) : last.Tells tokens := by
  induction journey with
  | stay => exact tells
  | take next later ih =>
      obtain ⟨places, behind, sorted, bounded⟩ := tells
      refine ih (among.shift next) (Nat.succ_pos _) ⟨places, behind, sorted, fun place member => ?_⟩
      exact (bounded place member).imp_right fun le => Nat.le_trans le (Nat.le_succ _)
  | record inside later ih =>
      exact ih ⟨among.upcoming, among.current⟩ begun (tells.record among begun _ _)

end Cursor

namespace Grammar

open Cursor

/-- Nothing is told in front of the first token: a block that goes on takes it, and one that does not
tells nothing. -/
theorem blockWith_tells {bodies : BodyReader} (journeys : BodiesJourney bodies)
    (parent : Option Nat) {tokens : List Token} {cursor : Cursor} (among : cursor.Among tokens)
    (clean : cursor.errors = []) : (blockWith bodies parent cursor).2.Tells tokens := by
  have silent {other : Cursor} (none : other.errors = []) : other.Tells tokens :=
    ⟨[], by rw [none]; exact .nil, .nil, by simp⟩
  have started := cursor.skipEmptyLines_journey.among among
  have quiet : cursor.skipEmptyLines.errors = [] := cursor.skipEmptyLines_errors.trans clean
  by_cases goes : goesOn parent cursor.skipEmptyLines = true
  · obtain ⟨head, rest, next, journey⟩ := line_takes journeys (hasNext_of_goesOn goes)
    have later := journey.trans (blockWith_journey journeys parent _)
    rw [blockWith_goesOn goes]
    exact later.tells (started.shift next) (Nat.succ_pos _) (silent quiet)
  · rw [blockWith]
    simp only
    rw [if_neg goes]
    exact silent quiet

end Grammar

namespace Document

open Grammar Cursor

/-- Every error of a script was recorded behind one of its visible tokens, in their order. -/
theorem ofText_tells (source : List Char) :
    ∃ places, List.Forall₂ (ParseError.Behind (Token.visible source)) places (ofText source).2 ∧
      places.Pairwise (· ≤ ·) ∧
      ∀ place ∈ places, 0 < place ∧ place ≤ (Token.visible source).length := by
  have start : (Cursor.ofTokens source (Token.ofText source)).Among (Token.visible source) :=
    ⟨rfl, rfl⟩
  have journeys := bodiesWithin_journey (Cursor.ofTokens source (Token.ofText source)).levels
  have journey := blockWith_journey journeys none (Cursor.ofTokens source (Token.ofText source))
  obtain ⟨taken, split, count⟩ := journey.takes
  obtain ⟨places, behind, sorted, bounded⟩ := blockWith_tells journeys none start rfl
  refine ⟨places, behind, sorted, fun place member => (bounded place member).imp_right fun le => ?_⟩
  have longer : taken.length ≤ (Token.visible source).length :=
    List.IsPrefix.length_le ⟨_, split.symm⟩
  have fresh : (Cursor.ofTokens source (Token.ofText source)).consumed = 0 := rfl
  rw [count, fresh, Nat.zero_add] at le
  exact Nat.le_trans le longer

end Document

end NovelScript
