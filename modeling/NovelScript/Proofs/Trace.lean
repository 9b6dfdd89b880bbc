import NovelScript.Grammar.Rule

/-!
# Traces

Within a line a cursor moves in two ways only: it takes a token or records an unexpected one.  What
a parse does to its cursor is a trace of such moves, and it does the same where more tokens follow
behind the end of the line.
-/

namespace NovelScript

/-- Whether a token can be taken within a line, as something other than a newline. -/
def Token.WithinLine (token : Token) : Prop :=
  ∃ kind, kind ≠ .newline ∧ token.hasKind kind = true

namespace Token

theorem hasKind_self (token : Token) : token.hasKind token.kind = true := by
  simp [hasKind]

theorem withinLine_of_hasKind {token : Token} {kind : Kind} (other : kind ≠ .newline)
    (has : token.hasKind kind = true) : token.WithinLine :=
  ⟨kind, other, has⟩

theorem withinLine_of_isName {token : Token} (name : token.isName = true) :
    token.WithinLine := by
  simp only [isName, Bool.or_eq_true] at name
  rcases name with identifier | keyword
  · exact withinLine_of_hasKind (by simp) identifier
  · refine withinLine_of_hasKind ?_ token.hasKind_self
    intro newline
    simp [newline] at keyword

theorem withinLine_of_not_newline {token : Token} (other : token.hasKind .newline = false) :
    token.WithinLine := by
  refine withinLine_of_hasKind ?_ token.hasKind_self
  intro newline
  simp [hasKind, newline] at other

end Token

/-- What may follow a line: nothing, or a token that is a newline and nothing else. -/
def LineEnd (tail : List Token) : Prop :=
  ∀ token ∈ tail.head?, ∀ kind, token.hasKind kind = true ↔ kind = .newline

theorem LineEnd.not_withinLine {tail : List Token} (ends : LineEnd tail) {token : Token}
    (first : token ∈ tail.head?) : ¬token.WithinLine := by
  rintro ⟨kind, other, has⟩
  exact other ((ends token first kind).1 has)

namespace Cursor

/-! ## Moves within a line -/

inductive Trace : Cursor → Cursor → Prop
  | refl {cursor : Cursor} : Trace cursor cursor
  | take {cursor last : Cursor} {token : Token} {rest : List Token}
      (next : cursor.upcoming = token :: rest) (within : token.WithinLine)
      (later : Trace (cursor.shift token rest) last) : Trace cursor last
  | record {cursor last : Cursor} {expected : List Kind}
      (later : Trace (cursor.record .unexpectedToken expected) last) : Trace cursor last

namespace Trace

variable {first second third : Cursor}

theorem trans (one : Trace first second) (two : Trace second third) : Trace first third := by
  induction one with
  | refl => exact two
  | take next within later ih => exact .take next within (ih two)
  | record later ih => exact .record (ih two)

theorem of_take {token : Token} {rest : List Token} (next : first.upcoming = token :: rest)
    (within : token.WithinLine) : Trace first (first.shift token rest) :=
  .take next within .refl

theorem of_record (expected : List Kind) :
    Trace first (first.record .unexpectedToken expected) :=
  .record .refl

theorem source_eq (trace : Trace first second) : second.source = first.source := by
  induction trace with
  | refl => rfl
  | take next within later ih => exact ih
  | record later ih => exact ih

theorem depth_eq (trace : Trace first second) : second.depth = first.depth := by
  induction trace with
  | refl => rfl
  | take next within later ih => exact ih
  | record later ih => exact ih

theorem errors_prefix (trace : Trace first second) : first.errors <+: second.errors := by
  induction trace with
  | refl => exact List.prefix_refl _
  | take next within later ih => exact ih
  | record later ih => exact (List.prefix_append _ _).trans ih

theorem suffix (trace : Trace first second) : second.upcoming <:+ first.upcoming := by
  induction trace with
  | refl => exact List.suffix_refl _
  | take next within later ih => exact next ▸ ih.trans (List.suffix_cons ..)
  | record later ih => exact ih

/-- Everything that a trace takes stands within the line. -/
theorem taken (trace : Trace first second) :
    ∃ tokens, first.upcoming = tokens ++ second.upcoming ∧ ∀ token ∈ tokens, token.WithinLine := by
  induction trace with
  | refl => exact ⟨[], rfl, by simp⟩
  | @take cursor last token rest next within later ih =>
      obtain ⟨tokens, split, all⟩ := ih
      refine ⟨token :: tokens, by rw [next, List.cons_append, ← split]; rfl, ?_⟩
      intro other member
      rcases List.mem_cons.1 member with rfl | member
      · exact within
      · exact all other member
  | record later ih => exact ih

/-- The moves of a trace are possible at any depth. -/
theorem atDepth (trace : Trace first second) (depth : Nat) :
    Trace { first with depth := depth } { second with depth := depth } := by
  induction trace with
  | refl => exact .refl
  | take next within later ih => exact .take next within ih
  | record later ih => exact .record ih

end Trace

theorem skipRestFrom_trace (cursor : Cursor) (tokens : List Token)
    (equal : cursor.upcoming = tokens) : Trace cursor (cursor.skipRestFrom tokens) := by
  induction tokens generalizing cursor with
  | nil => exact .refl
  | cons token rest ih =>
      unfold skipRestFrom
      split
      · exact .refl
      · next other =>
          have within := Token.withinLine_of_not_newline (Bool.eq_false_iff.2 other)
          exact .take equal within (ih (cursor.shift token rest) rfl)

theorem skipRestOfLine_trace (cursor : Cursor) : Trace cursor cursor.skipRestOfLine :=
  skipRestFrom_trace cursor cursor.upcoming rfl

/-! ## The next token -/

theorem advance_eq {cursor : Cursor} {token : Token} {rest : List Token}
    (next : cursor.upcoming = token :: rest) :
    cursor.advance = (some token, cursor.shift token rest) := by
  simp [advance, next]

theorem next_of_peek {cursor : Cursor} {accepts : Token → Bool}
    (tested : cursor.peek?.any accepts = true) :
    ∃ token rest, cursor.upcoming = token :: rest ∧ accepts token = true := by
  unfold peek? at tested
  cases equal : cursor.upcoming with
  | nil => simp [equal] at tested
  | cons token rest => exact ⟨token, rest, rfl, by simpa [equal] using tested⟩

/-! ## More tokens behind the line -/

/-- Two cursors at the same place of a line, the longer with more tokens behind the line. -/
structure Extends (tail : List Token) (short long : Cursor) : Prop where
  source : long.source = short.source
  current : long.current = short.current
  depth : long.depth = short.depth
  upcoming : long.upcoming = short.upcoming ++ tail

namespace Extends

variable {tail : List Token} {short long : Cursor}

theorem shift (extends_ : Extends tail short long) (token : Token) (rest : List Token) :
    Extends tail (short.shift token rest) (long.shift token (rest ++ tail)) :=
  ⟨extends_.source, rfl, extends_.depth, rfl⟩

theorem next (extends_ : Extends tail short long) {token : Token} {rest : List Token}
    (next : short.upcoming = token :: rest) : long.upcoming = token :: (rest ++ tail) := by
  rw [extends_.upcoming, next, List.cons_append]

theorem record (extends_ : Extends tail short long) (problem : ParseProblem)
    (expected : List Kind) :
    Extends tail (short.record problem expected) (long.record problem expected) :=
  ⟨extends_.source, extends_.current, extends_.depth, extends_.upcoming⟩

/-- A question about the next token has the same answer on both sides if no newline passes it. -/
theorem peek_any (extends_ : Extends tail short long) (ends : LineEnd tail)
    {accepts : Token → Bool} (within : ∀ token, accepts token = true → token.WithinLine) :
    long.peek?.any accepts = short.peek?.any accepts := by
  unfold peek?
  rw [extends_.upcoming]
  cases short.upcoming with
  | cons token rest => rfl
  | nil =>
      simp only [List.nil_append, List.head?_nil, Option.any_none]
      cases first : tail.head? with
      | none => rfl
      | some token =>
          rw [Option.any_some, Bool.eq_false_iff]
          exact fun accepted => ends.not_withinLine first (within token accepted)

theorem test (extends_ : Extends tail short long) (ends : LineEnd tail) {kind : Kind}
    (other : kind ≠ .newline) : long.test kind = short.test kind :=
  extends_.peek_any ends fun _ has => Token.withinLine_of_hasKind other has

theorem skipRestFrom (extends_ : Extends tail short long) (ends : LineEnd tail)
    (tokens : List Token) (equal : short.upcoming = tokens) :
    Extends tail (short.skipRestFrom tokens) (long.skipRestFrom (tokens ++ tail)) := by
  induction tokens generalizing short long with
  | cons token rest ih =>
      simp only [Cursor.skipRestFrom, List.cons_append]
      split
      · exact extends_
      · exact ih (extends_.shift token rest) rfl
  | nil =>
      cases tail with
      | nil => exact extends_
      | cons token rest =>
          have newline : token.hasKind .newline = true :=
            (ends token (by simp) .newline).2 rfl
          simpa [Cursor.skipRestFrom, newline] using extends_

theorem skipRestOfLine (extends_ : Extends tail short long) (ends : LineEnd tail) :
    Extends tail short.skipRestOfLine long.skipRestOfLine := by
  have skipped := extends_.skipRestFrom ends short.upcoming rfl
  rw [← extends_.upcoming] at skipped
  exact skipped

end Extends

end Cursor

end NovelScript
