import Mathlib.Data.List.Induction
import NovelScript.Proofs.HiddenTokens

/-!
# Readers of a list of tokens

A reader passes over what is hidden behind every step, and not only when it is asked for a token.
However often the hidden kinds change on the way, it stands at the end of its tokens or at a visible
one, gives out each token at most once and in order, and passes over those only that are hidden at
the time.
-/

namespace NovelScript.TokenReader

/-! ## Calls -/

/-- What a reader is asked to do. -/
inductive Call where
  | hide (kinds : List Kind)
  | advance
  deriving DecidableEq, Repr

def apply (reader : TokenReader) : Call → TokenReader
  | .hide kinds => reader.hide kinds
  | .advance => reader.advance.2

/-- The token that a call gives out. -/
def answer? (reader : TokenReader) : Call → Option Token
  | .hide _ => none
  | .advance => reader.advance.1

def after (reader : TokenReader) (calls : List Call) : TokenReader := calls.foldl apply reader

/-- The kinds that a call asks to hide. -/
def Call.hides? : Call → Option (List Kind)
  | .hide kinds => some kinds
  | .advance => none

/-- The kinds that are hidden behind some calls: those of the last call that hides any. -/
def hiddenBy (calls : List Call) : List Kind := (calls.filterMap Call.hides?).getLast?.getD []

/-- Where a reader stands in its tokens. -/
def index (tokens : List Token) (reader : TokenReader) : Nat := tokens.length - reader.rest.length

/-- The tokens that are given out in the course of some calls, each with its index. -/
def given (tokens : List Token) (reader : TokenReader) : List Call → List (Nat × Token)
  | [] => []
  | call :: calls =>
      (reader.answer? call).toList.map (reader.index tokens, ·) ++
        given tokens (reader.apply call) calls

theorem after_concat (reader : TokenReader) (calls : List Call) (call : Call) :
    reader.after (calls ++ [call]) = (reader.after calls).apply call := by
  simp [after]

theorem hidden_after (tokens : List Token) (calls : List Call) :
    ((ofList tokens).after calls).hidden = hiddenBy calls := by
  induction calls using List.reverseRecOn with
  | nil => rfl
  | append_singleton calls call ih =>
      rw [after_concat]
      cases call with
      | hide kinds => simp [apply, hide, hiddenBy, Call.hides?]
      | advance =>
          have same : hiddenBy (calls ++ [.advance]) = hiddenBy calls := by
            simp [hiddenBy, Call.hides?]
          rw [same, ← ih, apply, advance]
          split <;> rfl

/-! ## One step -/

/-- At the end, or at a token that is not hidden. -/
def Settled (reader : TokenReader) : Prop :=
  ∀ token ∈ reader.rest.head?, token.kind ∉ reader.hidden

theorem settle_settled (hidden : List Kind) (tokens : List Token) :
    Settled ⟨hidden, settle hidden tokens⟩ := by
  intro token first
  have stops := List.head?_dropWhile_not (fun token => hidden.contains token.kind) tokens
  rw [← settle, Option.mem_def.1 first] at stops
  simpa using stops

/-- Settling leaves out hidden tokens from the front only. -/
theorem exists_settle (hidden : List Kind) (tokens : List Token) :
    ∃ passed, tokens = passed ++ settle hidden tokens ∧ ∀ token ∈ passed, token.kind ∈ hidden := by
  refine ⟨tokens.takeWhile fun token => hidden.contains token.kind,
    List.takeWhile_append_dropWhile.symm, fun token member => ?_⟩
  simpa using List.all_eq_true.1 List.all_takeWhile token member

theorem Settled.apply {reader : TokenReader} (settled : reader.Settled) (call : Call) :
    (reader.apply call).Settled := by
  cases call with
  | hide kinds => exact settle_settled kinds reader.rest
  | advance =>
      rw [TokenReader.apply, TokenReader.advance]
      split
      · exact settled
      · exact settle_settled reader.hidden _

/-- The step of a call: the token that it gives out comes first, and then those that it passes. -/
theorem exists_passed (reader : TokenReader) (call : Call) :
    ∃ passed, reader.rest = (reader.answer? call).toList ++ (passed ++ (reader.apply call).rest) ∧
      ∀ token ∈ passed, token.kind ∈ (reader.apply call).hidden := by
  cases call with
  | hide kinds => exact exists_settle kinds reader.rest
  | advance =>
      rw [answer?, TokenReader.apply, TokenReader.advance]
      split
      · next none => exact ⟨[], by simp [none]⟩
      · next token rest next =>
          obtain ⟨passed, split, hidden⟩ := exists_settle reader.hidden rest
          exact ⟨passed, by rw [next]; simpa using split, hidden⟩

/-! ## Indices -/

section
variable {tokens : List Token} {reader : TokenReader} (within : reader.rest <:+ tokens)
include within

theorem drop_index : tokens.drop (reader.index tokens) = reader.rest :=
  (List.suffix_iff_eq_drop.1 within).symm

theorem getElem?_index (count : Nat) :
    tokens[reader.index tokens + count]? = reader.rest[count]? := by
  rw [← List.getElem?_drop, drop_index within]

theorem peek?_index : reader.peek? = tokens[reader.index tokens]? := by
  rw [peek?, List.head?_eq_getElem?, ← getElem?_index within, Nat.add_zero]

theorem apply_suffix (call : Call) : (reader.apply call).rest <:+ tokens := by
  obtain ⟨passed, split, -⟩ := reader.exists_passed call
  refine List.IsSuffix.trans ⟨(reader.answer? call).toList ++ passed, ?_⟩ within
  rw [split, List.append_assoc]

/-- What a call comes past is what it gives out, or else hidden from then on. -/
theorem step_index (call : Call) :
    reader.index tokens + (reader.answer? call).toList.length ≤ (reader.apply call).index tokens ∧
    (∀ token ∈ reader.answer? call, tokens[reader.index tokens]? = some token) ∧
    ∀ place, reader.index tokens ≤ place → place < (reader.apply call).index tokens →
      (∃ token, reader.answer? call = some token ∧ place = reader.index tokens) ∨
      ∃ token, tokens[place]? = some token ∧ token.kind ∈ (reader.apply call).hidden := by
  obtain ⟨passed, split, hidden⟩ := reader.exists_passed call
  have count := congrArg List.length split
  have bound := within.length_le
  simp only [List.length_append] at count
  have at_ (count : Nat) : tokens[reader.index tokens + count]? =
      ((reader.answer? call).toList ++ (passed ++ (reader.apply call).rest))[count]? := by
    rw [getElem?_index within, ← split]
  refine ⟨by unfold index; omega, fun token given => ?_, fun place from_ before => ?_⟩
  · simpa [Option.mem_def.1 given] using at_ 0
  · obtain ⟨count, rfl⟩ := Nat.exists_eq_add_of_le from_
    by_cases first : count < (reader.answer? call).toList.length
    · cases given : reader.answer? call with
      | none => simp [given] at first
      | some token =>
          rw [given] at first
          exact .inl ⟨token, rfl, by simpa using first⟩
    · have inside : count - (reader.answer? call).toList.length < passed.length := by
        unfold index at before
        omega
      refine .inr ⟨passed[count - (reader.answer? call).toList.length], ?_,
        hidden _ (List.getElem_mem inside)⟩
      rw [at_, List.getElem?_append_right (Nat.le_of_not_lt first),
        List.getElem?_append_left inside, List.getElem?_eq_getElem inside]

end

/-! ## A run -/

/-- Wherever calls lead, the reader is still within its tokens, and it is settled if it was. -/
theorem after_reads {tokens : List Token} {reader : TokenReader} (within : reader.rest <:+ tokens)
    (settled : reader.Settled) (calls : List Call) :
    (reader.after calls).rest <:+ tokens ∧ (reader.after calls).Settled := by
  induction calls generalizing reader with
  | nil => exact ⟨within, settled⟩
  | cons call calls ih => exact ih (apply_suffix within call) (settled.apply call)

theorem ofList_settled (tokens : List Token) : (ofList tokens).Settled := by
  intro token _
  simp [ofList]

/-- What is given out stands at its index, at or behind the place of the reader. -/
theorem given_at {tokens : List Token} {reader : TokenReader} (within : reader.rest <:+ tokens)
    (calls : List Call) : ∀ entry ∈ given tokens reader calls,
      reader.index tokens ≤ entry.1 ∧ tokens[entry.1]? = some entry.2 := by
  induction calls generalizing reader with
  | nil => simp [given]
  | cons call calls ih =>
      obtain ⟨forward, at_, -⟩ := step_index within call
      intro entry member
      rcases List.mem_append.1 member with now | later
      · obtain ⟨token, given, rfl⟩ := List.mem_map.1 now
        exact ⟨Nat.le_refl _, at_ token (Option.mem_toList.1 given)⟩
      · obtain ⟨behind, there⟩ := ih (apply_suffix within call) entry later
        exact ⟨by omega, there⟩

theorem given_ascending {tokens : List Token} {reader : TokenReader}
    (within : reader.rest <:+ tokens) (calls : List Call) :
    (given tokens reader calls).Pairwise fun one two => one.1 < two.1 := by
  induction calls generalizing reader with
  | nil => exact .nil
  | cons call calls ih =>
      have forward := (step_index within call).1
      have next := apply_suffix within call
      refine List.pairwise_append.2 ⟨?_, ih next, fun one now two later => ?_⟩
      · cases reader.answer? call <;> simp
      · obtain ⟨token, given, rfl⟩ := List.mem_map.1 now
        rw [Option.mem_toList.1 given] at forward
        exact Nat.lt_of_lt_of_le (Nat.lt_of_lt_of_le (Nat.lt_succ_self _) forward)
          (given_at next calls two later).1

theorem given_concat (tokens : List Token) (reader : TokenReader) (calls : List Call)
    (call : Call) : given tokens reader (calls ++ [call]) = given tokens reader calls ++
      ((reader.after calls).answer? call).toList.map ((reader.after calls).index tokens, ·) := by
  induction calls generalizing reader with
  | nil => simp [given, after]
  | cons first calls ih =>
      rw [List.cons_append, given, ih, given, List.append_assoc]
      rfl

/-- The run of calls: every token that the reader has come past was given out, or was hidden from
the call on that passed it. -/
theorem passed_of_lt_index (tokens : List Token) (calls : List Call) :
    ∀ place < ((ofList tokens).after calls).index tokens,
      (∃ token, (place, token) ∈ given tokens (ofList tokens) calls) ∨
      ∃ before call behind, calls = before ++ call :: behind ∧
        ((ofList tokens).after before).index tokens ≤ place ∧
        place < ((ofList tokens).after (before ++ [call])).index tokens ∧
        ∃ token, tokens[place]? = some token ∧ token.kind ∈ hiddenBy (before ++ [call]) := by
  induction calls using List.reverseRecOn with
  | nil => simp [after, index, ofList]
  | append_singleton calls call ih =>
      intro place before
      rw [given_concat]
      by_cases earlier : place < ((ofList tokens).after calls).index tokens
      · rcases ih place earlier with ⟨token, member⟩ | ⟨front, other, behind, rfl, passed⟩
        · exact .inl ⟨token, List.mem_append_left _ member⟩
        · exact .inr ⟨front, other, behind ++ [call], by simp, passed⟩
      · have from_ := Nat.le_of_not_lt earlier
        have within := (after_reads (List.suffix_refl tokens) (ofList_settled tokens) calls).1
        obtain ⟨-, -, passes⟩ := step_index within call
        rw [after_concat] at before
        rcases passes place from_ before with ⟨token, given, rfl⟩ | ⟨token, at_, hidden⟩
        · exact .inl ⟨token, List.mem_append_right _ (by simp [given])⟩
        · refine .inr ⟨calls, call, [], rfl, from_, by rwa [after_concat], token, at_, ?_⟩
          rwa [← hidden_after tokens, after_concat]

/-- With the hidden kinds left alone, what is given out is what remains to be seen. -/
theorem given_advance (tokens : List Token) (reader : TokenReader) (count : Nat) :
    (given tokens reader (List.replicate count .advance)).map Prod.snd =
      reader.remaining.take count := by
  induction count generalizing reader with
  | zero => simp [given]
  | succ count ih =>
      obtain ⟨first, rest⟩ := reader.advance_eq
      rw [List.replicate_succ, given, List.map_append, ih, apply, rest, answer?, first]
      cases reader.remaining <;> simp

/-- A reader loses no visible token and repeats none, however its hidden kinds change in the course
of the calls.  At any time its three questions agree on the next token, which is not hidden.  What
was given out has come in the order of the indices, and all else that the reader has come past was
hidden when it did.  If kinds are hidden once, at the start, exactly the others are given out. -/
theorem ofList_reads_visible (tokens : List Token) (calls : List Call) :
    let reader := (ofList tokens).after calls
    (reader.hasNext = reader.peek?.isSome ∧ reader.advance.1 = reader.peek? ∧
      reader.peek? = tokens[reader.index tokens]?) ∧
    (∀ token ∈ reader.peek?, token.kind ∉ hiddenBy calls) ∧
    (∀ entry ∈ given tokens (ofList tokens) calls, tokens[entry.1]? = some entry.2) ∧
    (given tokens (ofList tokens) calls).Pairwise (fun one two => one.1 < two.1) ∧
    (∀ place < reader.index tokens,
      (∃ token, (place, token) ∈ given tokens (ofList tokens) calls) ∨
      ∃ before call behind, calls = before ++ call :: behind ∧
        ((ofList tokens).after before).index tokens ≤ place ∧
        place < ((ofList tokens).after (before ++ [call])).index tokens ∧
        ∃ token, tokens[place]? = some token ∧ token.kind ∈ hiddenBy (before ++ [call])) ∧
    ∀ kinds count,
      (given tokens (ofList tokens) (.hide kinds :: List.replicate count .advance)).map Prod.snd =
        (tokens.filter fun token => !kinds.contains token.kind).take count := by
  have whole : (ofList tokens).rest <:+ tokens := List.suffix_refl tokens
  obtain ⟨within, settled⟩ := after_reads whole (ofList_settled tokens) calls
  refine ⟨⟨?agree, ?gives, peek?_index within⟩, ?visible, ?placed, given_ascending whole calls,
    passed_of_lt_index tokens calls, ?once⟩
  case agree =>
    rw [hasNext, peek?]
    cases ((ofList tokens).after calls).rest <;> rfl
  case gives => rw [(advance_eq _).1, peek?_eq]
  case visible =>
    rw [← hidden_after tokens calls]
    exact settled
  case placed => exact fun entry member => (given_at whole calls entry member).2
  case once =>
    intro kinds count
    have settles := remaining_settle kinds tokens
    rw [given, answer?, Option.toList_none, List.map_nil, List.nil_append, given_advance]
    exact congrArg (List.take count) settles

end NovelScript.TokenReader
