import NovelScript.Proofs.Acceptance

/-!
# Rules and their languages

A rule accepts a language if it does so where it is required, and if the next token alone shows that
a word of it could stand there.
-/

namespace NovelScript

open Computability Words

namespace Rule

/-- A rule that, where it is required, accepts a language whose words open with certain tokens, and
that starts at these. -/
structure Accepts {α : Type} (levels : Nat) (opens : Token → Prop) (words : Language Token)
    (follow : List Token → Prop) (rule : Rule α) : Prop where
  bound : rule.LineBound
  starts : ∀ cursor : Cursor, cursor.Fits levels →
    (rule.starts cursor = true ↔ ∃ token ∈ cursor.upcoming.head?, opens token)
  begins : Begins opens words
  require : rule.require.Accepts levels words follow

namespace Accepts

variable {α : Type} {levels : Nat} {opens : Token → Prop} {words : Language Token}
  {follow : List Token → Prop} {rule : Rule α}

theorem of_eq {other : Language Token} (accepts : Accepts levels opens words follow rule)
    (same : words = other) : Accepts levels opens other follow rule := same ▸ accepts

theorem follow_mono {more : List Token → Prop} (accepts : Accepts levels opens words follow rule)
    (implies : ∀ rest, more rest → follow rest) : Accepts levels opens words more rule :=
  ⟨accepts.bound, accepts.starts, accepts.begins, accepts.require.follow_mono implies⟩

theorem of_opens {more : Token → Prop} (accepts : Accepts levels opens words follow rule)
    (same : ∀ token, opens token ↔ more token) : Accepts levels more words follow rule := by
  have equal : opens = more := funext fun token => propext (same token)
  exact equal ▸ accepts

theorem congr {other : Rule α} (accepts : Accepts levels opens words follow rule)
    (bound : other.LineBound) (starts : other.starts = rule.starts)
    (parse : ∀ cursor : Cursor, cursor.levels = levels → other.parse cursor = rule.parse cursor) :
    Accepts levels opens words follow other := by
  have same (cursor : Cursor) (fits : cursor.Fits levels) :
      other.require cursor = rule.require cursor := by
    simp only [Rule.require, starts, parse cursor fits.levels_eq]
  refine ⟨bound, ?_, accepts.begins, Rule.require_lineBound bound, ?_, ?_⟩
  · rw [starts]
    exact accepts.starts
  · intro cursor fits
    rw [same cursor fits]
    exact accepts.require.sound cursor fits
  · intro cursor fits
    rw [same cursor fits]
    exact accepts.require.complete cursor fits

theorem starts_of_mem (accepts : Accepts levels opens words follow rule) {cursor : Cursor}
    (fits : cursor.Fits levels) {word rest : List Token} (member : word ∈ words)
    (split : cursor.upcoming = word ++ rest) : rule.starts cursor = true := by
  obtain ⟨first, next, holds⟩ := accepts.begins word member
  refine (accepts.starts cursor fits).2 ⟨first, ?_, holds⟩
  rw [split, List.head?_append, Option.mem_def.1 next]
  rfl

theorem recordUnexpected_ne (cursor : Cursor) :
    cursor.recordUnexpected.errors ≠ cursor.errors := by
  simp [Cursor.recordUnexpected, Cursor.record]

theorem of_parse (bound : rule.LineBound)
    (starts : ∀ cursor : Cursor, cursor.Fits levels →
      (rule.starts cursor = true ↔ ∃ token ∈ cursor.upcoming.head?, opens token))
    (begins : Begins opens words) (parse : rule.parse.Accepts levels words follow) :
    Accepts levels opens words follow rule := by
  refine ⟨bound, starts, begins, Rule.require_lineBound bound, ?_, ?_⟩
  · intro cursor fits clean
    unfold Rule.require at clean ⊢
    split at clean
    · next tested =>
        rw [if_pos tested]
        exact parse.sound cursor fits clean
    · exact absurd clean (recordUnexpected_ne cursor)
  · intro cursor fits word member rest split holds
    obtain ⟨first, next, opened⟩ := begins word member
    have tested : rule.starts cursor = true := by
      refine (starts cursor fits).2 ⟨first, ?_, opened⟩
      rw [split, List.head?_append, Option.mem_def.1 next]
      rfl
    rw [Rule.require, if_pos tested]
    exact parse.complete cursor fits word member rest split holds

theorem startingAt {kind : Kind} [plain : kind.IsPlain] {parse : Parse α} (begins : Begins (·.kind = kind) words)
    (accepts : parse.Accepts levels words follow) :
    Accepts levels (·.kind = kind) words follow (startingAt kind parse) :=
  of_parse (startingAt_lineBound plain.newline accepts.bound)
    (fun _ fits => fits.test_iff) begins accepts

/-- Where the rule may be missing, what follows must not look like it. -/
theorem «optional» (accepts : Accepts levels opens words follow rule) :
    rule.optional.Accepts levels (Words.optional words)
      fun rest => follow rest ∧ ∀ token ∈ rest.head?, ¬opens token := by
  have there {cursor : Cursor} (tested : rule.starts cursor = true) :
      rule.optional cursor = (some (rule.require cursor).1, (rule.require cursor).2) := by
    rw [Rule.optional, Rule.require, if_pos tested, if_pos tested]
    rfl
  have missing {cursor : Cursor} (tested : ¬rule.starts cursor = true) :
      rule.optional cursor = (some none, cursor) := if_neg tested
  refine ⟨Rule.optional_lineBound accepts.bound, ?_, ?_⟩
  · intro cursor fits clean
    by_cases tested : rule.starts cursor = true
    · rw [there tested] at clean ⊢
      obtain ⟨-, word, member, split⟩ := accepts.require.sound cursor fits clean
      exact ⟨⟨_, rfl⟩, word, .inr member, split⟩
    · rw [missing tested]
      exact ⟨⟨_, rfl⟩, [], .inl rfl, rfl⟩
  · rintro cursor fits word member rest split ⟨holds, other⟩
    rcases member with rfl | member
    · have tested : ¬rule.starts cursor = true := by
        rw [accepts.starts cursor fits, split]
        rintro ⟨token, first, opened⟩
        exact other token first opened
      rw [missing tested]
      exact ⟨rfl, split⟩
    · rw [there (accepts.starts_of_mem fits member split)]
      exact accepts.require.complete cursor fits word member rest split holds

/-! ## Choices -/

theorem choice_nil :
    Accepts levels (fun _ => False) 0 follow (choice ([] : List (Rule α))) := by
  refine of_parse (choice_lineBound (by simp)) ?_ (fun _ member => member.elim) ?_
  · intro cursor fits
    simp [choice]
  · refine ⟨(choice_lineBound (by simp)).parse, ?_, fun _ _ _ member => member.elim⟩
    intro cursor fits clean
    exact absurd clean (recordUnexpected_ne cursor)

private theorem choice_cons_lineBound {rules : List (Rule α)} (one : rule.LineBound)
    (rest : (choice rules).LineBound) : (choice (rule :: rules)).LineBound := by
  have parse_eq (cursor : Cursor) : (choice (rule :: rules)).parse cursor =
      if rule.starts cursor then rule.parse cursor else (choice rules).parse cursor := by
    by_cases tested : rule.starts cursor = true
    · simp [choice, tested]
    · simp [choice, tested]
  refine ⟨?_, ?_, ?_⟩
  · intro tail short long ends extends_
    exact congrArg₂ (· || ·) (one.starts ends extends_) (rest.starts ends extends_)
  · intro cursor
    rw [parse_eq]
    split
    · exact one.parse.trace cursor
    · exact rest.parse.trace cursor
  · intro tail short long ends extends_
    rw [parse_eq, parse_eq, one.starts ends extends_]
    split
    · exact one.parse.extend ends extends_
    · exact rest.parse.extend ends extends_

theorem choice_cons {rules : List (Rule α)} {others : Token → Prop} {more : Language Token}
    (one : Accepts levels opens words follow rule)
    (rest : Accepts levels others more follow (choice rules))
    (apart : ∀ token, opens token → ¬others token) :
    Accepts levels (fun token => opens token ∨ others token) (words + more) follow
      (choice (rule :: rules)) := by
  have here {cursor : Cursor} (tested : rule.starts cursor = true) :
      (choice (rule :: rules)).require cursor = rule.require cursor := by
    simp [Rule.require, choice, tested]
  have later {cursor : Cursor} (tested : ¬rule.starts cursor = true) :
      (choice (rule :: rules)).require cursor = (choice rules).require cursor := by
    simp [Rule.require, choice, tested]
  have whole := choice_cons_lineBound one.bound rest.bound
  refine ⟨whole, ?_, ?_, Rule.require_lineBound whole, ?_, ?_⟩
  · intro cursor fits
    have split : (choice (rule :: rules)).starts cursor =
        (rule.starts cursor || (choice rules).starts cursor) := rfl
    rw [split, Bool.or_eq_true, one.starts cursor fits, rest.starts cursor fits]
    constructor
    · rintro (⟨token, first, opened⟩ | ⟨token, first, opened⟩)
      · exact ⟨token, first, .inl opened⟩
      · exact ⟨token, first, .inr opened⟩
    · rintro ⟨token, first, opened | opened⟩
      · exact .inl ⟨token, first, opened⟩
      · exact .inr ⟨token, first, opened⟩
  · exact (one.begins.mono fun _ => .inl).add (rest.begins.mono fun _ => .inr)
  · intro cursor fits clean
    by_cases tested : rule.starts cursor = true
    · rw [here tested] at clean ⊢
      obtain ⟨found, word, member, split⟩ := one.require.sound cursor fits clean
      exact ⟨found, word, .inl member, split⟩
    · rw [later tested] at clean ⊢
      obtain ⟨found, word, member, split⟩ := rest.require.sound cursor fits clean
      exact ⟨found, word, .inr member, split⟩
  · rintro cursor fits word (member | member) tail split holds
    · rw [here (one.starts_of_mem fits member split)]
      exact one.require.complete cursor fits word member tail split holds
    · have tested : ¬rule.starts cursor = true := by
        rw [one.starts cursor fits]
        rintro ⟨token, first, opened⟩
        obtain ⟨other, next, also⟩ := rest.begins word member
        rw [split, List.head?_append, Option.mem_def.1 next] at first
        cases first
        exact apart token opened also
      rw [later tested]
      exact rest.require.complete cursor fits word member tail split holds

end Accepts

end Rule

end NovelScript
