import NovelScript.Proofs.Trace

/-!
# Parses within a line

A parse is bound to its line if it moves by traces and its result does not change when more tokens
follow behind the end of the line.  Every combinator keeps this.
-/

namespace NovelScript

namespace Parse

/-- A parse that moves within its line and reads nothing behind it. -/
structure LineBound {α : Type} (parse : Parse α) : Prop where
  trace : ∀ cursor, Cursor.Trace cursor (parse cursor).2
  extend : ∀ {tail : List Token} {short long : Cursor}, LineEnd tail →
    Cursor.Extends tail short long →
      (parse long).1 = (parse short).1 ∧ Cursor.Extends tail (parse short).2 (parse long).2

variable {α β : Type}

namespace LineBound

theorem pure (value : α) : (pure value : Parse α).LineBound :=
  ⟨fun _ => .refl, fun _ extends_ => ⟨rfl, extends_⟩⟩

theorem bind {first : Parse α} {next : α → Parse β} (start : first.LineBound)
    (behind : ∀ value, (next value).LineBound) : (first >>= next).LineBound := by
  constructor
  · intro cursor
    have started := start.trace cursor
    cases found : (first cursor).1 with
    | some value =>
        rw [bind_some found]
        exact started.trans ((behind value).trace _)
    | none =>
        rw [bind_none found]
        exact started
  · intro tail short long ends extends_
    obtain ⟨same, started⟩ := start.extend ends extends_
    cases found : (first short).1 with
    | some value =>
        rw [found] at same
        rw [bind_some found, bind_some same]
        exact (behind value).extend ends started
    | none =>
        rw [found] at same
        rw [bind_none found, bind_none same]
        exact ⟨rfl, started⟩

theorem attempt {parse : Parse α} (bound : parse.LineBound) : parse.attempt.LineBound :=
  ⟨bound.trace, fun ends extends_ =>
    ⟨congrArg some (bound.extend ends extends_).1, (bound.extend ends extends_).2⟩⟩

/-- A parse that looks at the cursor first is bound to the line if what it sees is the same with
and without more tokens behind the line. -/
theorem of_look {next : Cursor → Parse α} (bound : ∀ cursor, (next cursor).LineBound)
    (same : ∀ {tail short long}, LineEnd tail → Cursor.Extends tail short long →
      next long = next short) : (look >>= next).LineBound := by
  constructor
  · exact fun cursor => (bound cursor).trace cursor
  · intro tail short long ends extends_
    show (next long long).1 = (next short short).1 ∧
      Cursor.Extends tail (next short short).2 (next long long).2
    rw [same ends extends_]
    exact (bound short).extend ends extends_

end LineBound

theorem fail_lineBound : (fail : Parse α).LineBound :=
  ⟨fun _ => .refl, fun _ extends_ => ⟨rfl, extends_⟩⟩

theorem text_lineBound (token : Token) : (text token).LineBound := by
  refine ⟨fun _ => .refl, ?_⟩
  intro tail short long ends extends_
  exact ⟨by simp only [text, extends_.source], extends_⟩

theorem spanFrom_lineBound (start : Position) : (spanFrom start).LineBound := by
  refine ⟨fun _ => .refl, ?_⟩
  intro tail short long ends extends_
  exact ⟨by simp only [spanFrom, Cursor.spanFrom, extends_.current], extends_⟩

theorem skipRestOfLine_lineBound : (move Cursor.skipRestOfLine).LineBound :=
  ⟨Cursor.skipRestOfLine_trace, fun ends extends_ => ⟨rfl, extends_.skipRestOfLine ends⟩⟩

private theorem takeIf_lineBound {accepts : Token → Bool} (expected : List Kind)
    (within : ∀ token, accepts token = true → token.WithinLine) :
    LineBound fun cursor : Cursor => cursor.takeIf (cursor.peek?.any accepts) expected := by
  constructor
  · intro cursor
    dsimp only [Cursor.takeIf]
    split
    · next tested =>
        obtain ⟨token, rest, next, accepted⟩ := Cursor.next_of_peek tested
        rw [Cursor.advance_eq next]
        exact .of_take next (within token accepted)
    · exact .of_record expected
  · intro tail short long ends extends_
    dsimp only [Cursor.takeIf]
    rw [extends_.peek_any ends within]
    split
    · next tested =>
        obtain ⟨token, rest, next, accepted⟩ := Cursor.next_of_peek tested
        rw [Cursor.advance_eq next, Cursor.advance_eq (extends_.next next)]
        exact ⟨rfl, extends_.shift token rest⟩
    · exact ⟨rfl, extends_.record _ _⟩

theorem token_lineBound {kind : Kind} (other : kind ≠ .newline) : (token kind).LineBound :=
  takeIf_lineBound [kind] fun _ has => Token.withinLine_of_hasKind other has

theorem name_lineBound : name.LineBound :=
  takeIf_lineBound [.identifier] fun _ => Token.withinLine_of_isName

theorem any_test (kinds : List Kind) (cursor : Cursor) :
    kinds.any cursor.test = cursor.peek?.any fun token => kinds.any token.hasKind := by
  unfold Cursor.test
  cases cursor.peek? with
  | none => simp
  | some token => rfl

theorem anyToken_lineBound {kinds : List Kind} (other : ∀ kind ∈ kinds, kind ≠ .newline) :
    (anyToken kinds).LineBound := by
  have within (token : Token) (accepted : (kinds.any token.hasKind) = true) :
      token.WithinLine := by
    obtain ⟨kind, member, has⟩ := List.any_eq_true.1 accepted
    exact Token.withinLine_of_hasKind (other kind member) has
  have bound := takeIf_lineBound kinds within
  simp only [← any_test] at bound
  exact bound

theorem tokenIf_lineBound {kind : Kind} (other : kind ≠ .newline) :
    (tokenIf kind).LineBound := by
  constructor
  · intro cursor
    show Cursor.Trace cursor (Cursor.optionalToken kind cursor).2
    unfold Cursor.optionalToken
    split
    · next tested =>
        obtain ⟨token, rest, next, accepted⟩ := Cursor.next_of_peek tested
        rw [Cursor.advance_eq next]
        exact .of_take next (Token.withinLine_of_hasKind other accepted)
    · exact .refl
  · intro tail short long ends extends_
    show some (Cursor.optionalToken kind long).1 = some (Cursor.optionalToken kind short).1 ∧
      Cursor.Extends tail (Cursor.optionalToken kind short).2
        (Cursor.optionalToken kind long).2
    unfold Cursor.optionalToken
    rw [extends_.test ends other]
    split
    · next tested =>
        obtain ⟨token, rest, next, accepted⟩ := Cursor.next_of_peek tested
        rw [Cursor.advance_eq next, Cursor.advance_eq (extends_.next next)]
        exact ⟨rfl, extends_.shift token rest⟩
    · exact ⟨rfl, extends_⟩

end Parse

/-! ## Rules within a line -/

namespace Rule

/-- A rule whose parse is bound to the line, and whose start does not show what is behind it. -/
structure LineBound {α : Type} (rule : Rule α) : Prop where
  starts : ∀ {tail : List Token} {short long : Cursor}, LineEnd tail →
    Cursor.Extends tail short long → rule.starts long = rule.starts short
  parse : rule.parse.LineBound

variable {α : Type}

theorem startingAt_lineBound {kind : Kind} {parse : Parse α} (other : kind ≠ .newline)
    (bound : parse.LineBound) : (startingAt kind parse).LineBound :=
  ⟨fun ends extends_ => extends_.test ends other, bound⟩

theorem require_lineBound {rule : Rule α} (bound : rule.LineBound) :
    rule.require.LineBound := by
  constructor
  · intro cursor
    unfold require
    split
    · exact bound.parse.trace cursor
    · exact .of_record []
  · intro tail short long ends extends_
    unfold require
    rw [bound.starts ends extends_]
    split
    · exact bound.parse.extend ends extends_
    · exact ⟨rfl, extends_.record _ _⟩

theorem optional_lineBound {rule : Rule α} (bound : rule.LineBound) :
    rule.optional.LineBound := by
  constructor
  · intro cursor
    unfold optional
    split
    · exact bound.parse.trace cursor
    · exact .refl
  · intro tail short long ends extends_
    unfold optional
    rw [bound.starts ends extends_]
    split
    · exact bound.parse.attempt.extend ends extends_
    · exact ⟨rfl, extends_⟩

private theorem find_starts {rules : List (Rule α)} (bound : ∀ rule ∈ rules, rule.LineBound)
    {tail : List Token} {short long : Cursor} (ends : LineEnd tail)
    (extends_ : Cursor.Extends tail short long) :
    (rules.find? fun rule => rule.starts long) = rules.find? fun rule => rule.starts short := by
  induction rules with
  | nil => rfl
  | cons rule rest ih =>
      simp only [List.find?_cons]
      rw [(bound rule (by simp)).starts ends extends_,
        ih fun other member => bound other (by simp [member])]

theorem choice_lineBound {rules : List (Rule α)} (bound : ∀ rule ∈ rules, rule.LineBound) :
    (choice rules).LineBound := by
  refine ⟨?_, ?_, ?_⟩
  · intro tail short long ends extends_
    show rules.any (·.starts long) = rules.any (·.starts short)
    rw [List.any_eq, List.any_eq, decide_eq_decide]
    refine exists_congr fun rule => and_congr_right fun member => ?_
    rw [(bound rule member).starts ends extends_]
  · intro cursor
    cases found : rules.find? (·.starts cursor) with
    | some rule =>
        rw [choice_some found]
        exact (bound rule (List.mem_of_find?_eq_some found)).parse.trace cursor
    | none =>
        rw [choice_none found]
        exact .of_record []
  · intro tail short long ends extends_
    have same := find_starts bound ends extends_
    cases found : rules.find? (·.starts short) with
    | some rule =>
        rw [choice_some found, choice_some (same.trans found)]
        exact (bound rule (List.mem_of_find?_eq_some found)).parse.extend ends extends_
    | none =>
        rw [choice_none found, choice_none (same.trans found)]
        exact ⟨rfl, extends_.record _ _⟩

end Rule

end NovelScript
