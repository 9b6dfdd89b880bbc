import NovelScript.Proofs.StatementAcceptance

/-!
# Expressions that nest too deep

An expression that needs more levels than are left is given up at the first parenthesis for which
there is none.  That is one error, wherever in the expression it is, and the cursor is left at the
end of the line.
-/

namespace NovelScript

open Computability Words

namespace Words

/-- The words of a language that need more levels than there are. -/
def beyond (words : Nat → Language Token) (levels : Nat) : Language Token :=
  {word | (∃ more, word ∈ words more) ∧ word ∉ words levels}

variable {levels : Nat} {word : List Token}

/-- An expression that needs more levels is one in parentheses, and so is the one inside as long as
there are levels. -/
theorem beyond_expression_cases (member : word ∈ beyond expression levels) :
    ∃ opening inner closing, word = opening :: (inner ++ [closing]) ∧
      opening.kind = .punctuation .openParen ∧
      ∀ fewer, levels = fewer + 1 → inner ∈ beyond expression fewer := by
  obtain ⟨⟨more, (literal | nested_) | reference⟩, lacks⟩ := member
  · exact absurd (.inl (.inl literal)) lacks
  · cases more with
    | zero => exact nested_.elim
    | succ more =>
        obtain ⟨_, ⟨_, ⟨opening, rfl, isOpen⟩, inner, inside, rfl⟩, _, ⟨closing, rfl, isClose⟩,
          rfl⟩ := nested_
        refine ⟨opening, inner, closing, rfl, isOpen, ?_⟩
        rintro fewer rfl
        refine ⟨⟨more, inside⟩, fun shallow => lacks (.inl (.inr ?_))⟩
        exact ⟨_, ⟨[opening], ⟨opening, rfl, isOpen⟩, inner, shallow, rfl⟩, [closing],
          ⟨closing, rfl, isClose⟩, rfl⟩
  · exact absurd (.inr reference) lacks

end Words

namespace Grammar

open Parse

variable {levels : Nat} {cursor : Cursor} {word rest tail : List Token}

/-- How a line is given up at an expression that needs more levels: one error at the parenthesis for
which there is none, and then one for each mark that is missed behind the expression, where the line
has ended. -/
structure GivenUp (levels : Nat) (deep tail : List Token) (missing : List Punctuation)
    (first last : Cursor) : Prop where
  lands : last.upcoming = tail
  told : ∃ current opening, opening ∈ deep[levels]? ∧ opening.kind = .punctuation .openParen ∧
    last.errors = first.errors ++ ⟨.unexpectedToken, current, some opening, []⟩ ::
      missing.map fun mark => ⟨.unexpectedToken, last.current, tail.head?, [.punctuation mark]⟩

theorem GivenUp.of_errors {levels : Nat} {deep tail : List Token} {missing : List Punctuation}
    {first second last : Cursor} (given : GivenUp levels deep tail missing second last)
    (same : second.errors = first.errors) : GivenUp levels deep tail missing first last :=
  ⟨given.lands, same ▸ given.told⟩

private theorem skipRestOfLine_lands (split : cursor.upcoming = word ++ tail)
    (inside : ∀ token ∈ word, token.hasKind .newline = false) (ends : LineEnd tail) :
    cursor.skipRestOfLine.errors = cursor.errors ∧ cursor.skipRestOfLine.upcoming = tail := by
  rw [Cursor.skipRestOfLine, split]
  exact skipRestFrom_complete cursor split inside ends

/-- In front of an opening parenthesis an expression is one in parentheses. -/
private theorem expressionOf_opening {parenthesized : Rule Expression} (fits : cursor.Fits levels)
    (starts : parenthesized.starts cursor = cursor.test (.punctuation .openParen))
    {opening : Token} {later : List Token} (next : cursor.upcoming = opening :: later)
    (isOpen : opening.kind = .punctuation .openParen) :
    (expressionOf parenthesized).starts cursor = true ∧
      (expressionOf parenthesized).parse cursor = parenthesized.parse cursor := by
  have tested : cursor.test (.punctuation .openParen) = true :=
    fits.test_iff.2 ⟨opening, by simp [next], isOpen⟩
  have noLiteral : literal.starts cursor = false := by
    rw [Bool.eq_false_iff, ne_eq, literal_accepts.starts cursor fits]
    rintro ⟨first, head, isLiteral⟩
    rw [next] at head
    cases head
    rcases isLiteral with ⟨kind, same⟩ | ⟨same, -⟩ <;> rw [isOpen] at same <;> cases same
  have found : (expressionForms parenthesized).find? (·.starts cursor) = some parenthesized := by
    simp [expressionForms, noLiteral, starts, tested]
  refine ⟨?_, Rule.choice_some found⟩
  exact List.any_eq_true.2 ⟨parenthesized, List.mem_of_find?_eq_some found, starts.trans tested⟩

/-- An expression with the levels that its cursor has left. -/
private theorem expressionOf_beyond {parenthesized : Rule Expression}
    (starts : ∀ cursor, parenthesized.starts cursor = cursor.test (.punctuation .openParen))
    (same : ∀ cursor : Cursor, cursor.levels = levels →
      parenthesized.parse cursor = (parenthesizedWithin levels).parse cursor)
    (fits : cursor.Fits levels) (member : word ∈ beyond Words.expression levels)
    (split : cursor.upcoming = word ++ rest ++ tail)
    (inside : ∀ token ∈ word ++ rest, token.hasKind .newline = false) (ends : LineEnd tail) :
    (expressionOf parenthesized).starts cursor = true ∧
      ∃ last, (expressionOf parenthesized).parse cursor = (none, last) ∧
        GivenUp levels word tail [] cursor last := by
  induction levels generalizing parenthesized cursor word rest with
  | zero =>
      obtain ⟨opening, inner, closing, rfl, isOpen, -⟩ := beyond_expression_cases member
      have next : cursor.upcoming = opening :: (inner ++ [closing] ++ rest ++ tail) := by
        simpa using split
      obtain ⟨begins, parsed⟩ := expressionOf_opening fits (starts cursor) next isOpen
      obtain ⟨errors, lands⟩ :=
        skipRestOfLine_lands (show cursor.recordUnexpected.upcoming = _ from split) inside ends
      refine ⟨begins, cursor.recordUnexpected.skipRestOfLine, ?_, lands, cursor.current, opening,
        rfl, isOpen, ?_⟩
      · rw [parsed, same cursor fits.levels_eq]
        rfl
      · rw [errors]
        simp [Cursor.recordUnexpected, Cursor.record, Cursor.peek?, next]
  | succ levels ih =>
      obtain ⟨opening, inner, closing, rfl, isOpen, deeper⟩ := beyond_expression_cases member
      have next : cursor.upcoming = opening :: (inner ++ ([closing] ++ rest) ++ tail) := by
        simpa using split
      obtain ⟨begins, parsed⟩ := expressionOf_opening fits (starts cursor) next isOpen
      have left := fits.levels_eq
      rw [Cursor.levels] at left
      have room : ¬cursor.depth ≥ maxNesting := by omega
      -- The parentheses inside are read behind the opening one, one level deeper.
      let within : Cursor := { cursor with depth := cursor.depth + 1 }
      have taken : token (.punctuation .openParen) within =
          (some opening, within.shift opening (inner ++ ([closing] ++ rest) ++ tail)) :=
        token_eq next (by simp [Token.hasKind, isOpen])
      have fitsInside : (within.shift opening (inner ++ ([closing] ++ rest) ++ tail)).Fits levels :=
        ⟨by simp only [within, Cursor.levels, Cursor.shift]; omega,
          fun token among => fits.wellFormed token (next ▸ List.mem_cons_of_mem opening among)⟩
      have startsInside (cursor : Cursor) : (parenthesizedWithin levels).starts cursor =
          cursor.test (.punctuation .openParen) := by cases levels <;> rfl
      obtain ⟨beginsInside, last, failed, lands, current, deepest, place, kind, errors⟩ :=
        ih startsInside (fun _ _ => rfl) fitsInside (deeper levels rfl) rfl
          (fun token among => inside token (by simp at among ⊢; tauto))
      refine ⟨begins, last.leaveNested, ?_, lands, current, deepest, ?_, kind, errors⟩
      · have required : (expressionOf (parenthesizedWithin levels)).require
            (within.shift opening (inner ++ ([closing] ++ rest) ++ tail)) = (none, last) := by
          rw [Rule.require, if_pos beginsInside, failed]
        have body : parenthesizedBody (expressionOf (parenthesizedWithin levels)) within =
            (none, last) := by
          rw [parenthesizedBody, bind_some (congrArg Prod.fst taken), taken,
            bind_none (congrArg Prod.fst required), required]
        rw [parsed, same cursor fits.levels_eq]
        simp only [parenthesizedWithin, Rule.startingAt, Cursor.enterNested, if_neg room]
        rw [show parenthesizedBody _ { cursor with depth := cursor.depth + 1 } = _ from body]
      · have bounded := (List.getElem?_eq_some_iff.1 place).1
        rw [List.getElem?_cons_succ, List.getElem?_append_left bounded]
        exact place

/-- An expression that needs more levels than are left is one error, at the parenthesis for which
there is none, and the rest of the line goes with it. -/
theorem expression_beyond (fits : cursor.Fits levels)
    (member : word ∈ beyond Words.expression levels)
    (split : cursor.upcoming = word ++ rest ++ tail)
    (inside : ∀ token ∈ word ++ rest, token.hasKind .newline = false) (ends : LineEnd tail) :
    expression.starts cursor = true ∧
      ∃ last, expression.parse cursor = (none, last) ∧ GivenUp levels word tail [] cursor last :=
  expressionOf_beyond (fun _ => rfl)
    (fun _ same => by simp only [parenthesized, Rule.startingAt, same]) fits member split inside
    ends

end Grammar

end NovelScript
