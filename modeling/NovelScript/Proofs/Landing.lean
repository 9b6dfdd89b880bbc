import NovelScript.Proofs.Journeys
import NovelScript.Proofs.Lines
import NovelScript.Proofs.Vocabulary

/-!
# Where a cursor lands

Every step of a block leaves the cursor at the start of a line.  Reading a line lands behind the
newline that ends it, whatever the line holds, and so does every way of giving up on a line.
-/

namespace NovelScript

/-! ## Ends of lines -/

theorem Token.kind_ne_of_hasKind {token : Token} {kind : Kind}
    (other : token.hasKind kind = false) : token.kind ≠ kind := by
  intro equal
  simp [Token.hasKind, equal] at other

theorem LineEnd.of_newline {tail : List Token} (wellFormed : ∀ token ∈ tail, token.WellFormed)
    (ends : ∀ token ∈ tail.head?, token.kind = .newline) : LineEnd tail := by
  intro token first kind
  exact (wellFormed token (List.mem_of_mem_head? first)).hasKind_of_newline (ends token first) kind

theorem LineEnd.newline {tail : List Token} (ends : LineEnd tail) :
    ∀ token ∈ tail.head?, token.kind = .newline :=
  fun token first => (ends token first token.kind).1 token.hasKind_self

theorem LineEnd.ofTokens_tail {tail : List Token} (ends : LineEnd tail) :
    Line.ofTokens tail.tail = Line.ofTokens tail := by
  cases tail with
  | nil => rfl
  | cons token rest => rw [Line.ofTokens_newline (ends.newline token rfl), List.tail_cons]

namespace Cursor

/-! ## Steps that keep the place -/

/-- A later cursor over the same source, at the same depth and with no error withdrawn. -/
structure LeadsTo (before after : Cursor) : Prop where
  source : after.source = before.source
  depth : after.depth = before.depth
  errors : before.errors <+: after.errors
  suffix : after.upcoming <:+ before.upcoming

namespace LeadsTo

variable {first second third : Cursor}

theorem refl : LeadsTo first first :=
  ⟨rfl, rfl, List.prefix_refl _, List.suffix_refl _⟩

theorem trans (one : LeadsTo first second) (two : LeadsTo second third) : LeadsTo first third :=
  ⟨two.source.trans one.source, two.depth.trans one.depth, one.errors.trans two.errors,
    two.suffix.trans one.suffix⟩

theorem shift {cursor : Cursor} {token : Token} {rest : List Token}
    (next : cursor.upcoming = token :: rest) : LeadsTo cursor (cursor.shift token rest) :=
  ⟨rfl, rfl, List.prefix_refl _, next ▸ List.suffix_cons token rest⟩

theorem record (cursor : Cursor) (problem : ParseProblem) (expected : List Kind) :
    LeadsTo cursor (cursor.record problem expected) :=
  ⟨rfl, rfl, List.prefix_append _ _, List.suffix_refl _⟩

theorem of_journey (journey : Journey first second) : LeadsTo first second := by
  induction journey with
  | stay => exact .refl
  | take next later ih => exact (shift next).trans ih
  | record inside later ih => exact (record ..).trans ih

theorem of_trace (trace : Trace first second) : LeadsTo first second :=
  .of_journey (.of_trace trace)

theorem wellFormed (leads : LeadsTo first second)
    (proper : ∀ token ∈ first.upcoming, token.WellFormed) :
    ∀ token ∈ second.upcoming, token.WellFormed :=
  fun token member => proper token (leads.suffix.subset member)

end LeadsTo

/-! ## Skipping -/

theorem skipLine_leadsTo (cursor : Cursor) : LeadsTo cursor cursor.skipLine :=
  .of_journey cursor.skipLine_journey

private theorem skipLineFrom_errors (cursor : Cursor) (tokens : List Token) :
    (cursor.skipLineFrom tokens).errors = cursor.errors := by
  induction tokens generalizing cursor with
  | nil => rfl
  | cons token rest ih =>
      unfold skipLineFrom
      dsimp only
      split
      · rfl
      · exact ih (cursor.shift token rest)

theorem skipLine_errors (cursor : Cursor) : cursor.skipLine.errors = cursor.errors :=
  skipLineFrom_errors cursor cursor.upcoming

private theorem skipLineFrom_upcoming (cursor : Cursor) {left tail : List Token}
    (next : cursor.upcoming = left ++ tail) (inside : ∀ token ∈ left, token.kind ≠ .newline)
    (ends : LineEnd tail) : (cursor.skipLineFrom (left ++ tail)).upcoming = tail.tail := by
  induction left generalizing cursor with
  | nil =>
      cases tail with
      | nil => simpa [skipLineFrom] using next
      | cons token rest => simp [skipLineFrom, ends.newline token rfl]
  | cons token left ih =>
      have other := inside token (by simp)
      simp only [List.cons_append, skipLineFrom, if_neg other]
      exact ih (cursor.shift token (left ++ tail)) rfl
        fun later member => inside later (by simp [member])

theorem skipLine_upcoming (cursor : Cursor) {left tail : List Token}
    (next : cursor.upcoming = left ++ tail) (inside : ∀ token ∈ left, token.kind ≠ .newline)
    (ends : LineEnd tail) : cursor.skipLine.upcoming = tail.tail := by
  rw [skipLine, next]
  exact skipLineFrom_upcoming cursor next inside ends

theorem skipEmptyLines_leadsTo (cursor : Cursor) : LeadsTo cursor cursor.skipEmptyLines :=
  .of_journey cursor.skipEmptyLines_journey

private theorem skipNewlinesFrom_stops (cursor : Cursor) (tokens : List Token)
    (equal : cursor.upcoming = tokens) :
    ∀ token ∈ (cursor.skipNewlinesFrom tokens).upcoming.head?,
      token.hasKind .newline = false := by
  induction tokens generalizing cursor with
  | nil => simp [skipNewlinesFrom, equal]
  | cons token rest ih =>
      unfold skipNewlinesFrom
      split
      · exact ih (cursor.shift token rest) rfl
      · next other =>
          intro first next
          simp only [equal, List.head?_cons, Option.mem_some_iff] at next
          simpa [next] using other

theorem skipEmptyLines_stops (cursor : Cursor) :
    ∀ token ∈ cursor.skipEmptyLines.upcoming.head?, token.hasKind .newline = false :=
  skipNewlinesFrom_stops cursor cursor.upcoming rfl

private theorem skipNewlinesFrom_errors (cursor : Cursor) (tokens : List Token) :
    (cursor.skipNewlinesFrom tokens).errors = cursor.errors := by
  induction tokens generalizing cursor with
  | nil => rfl
  | cons token rest ih =>
      unfold skipNewlinesFrom
      split
      · exact ih (cursor.shift token rest)
      · rfl

theorem skipEmptyLines_errors (cursor : Cursor) : cursor.skipEmptyLines.errors = cursor.errors :=
  skipNewlinesFrom_errors cursor cursor.upcoming

private theorem skipNewlinesFrom_lines (cursor : Cursor) (tokens : List Token)
    (equal : cursor.upcoming = tokens) (proper : ∀ token ∈ tokens, token.WellFormed) :
    Line.ofTokens (cursor.skipNewlinesFrom tokens).upcoming = Line.ofTokens tokens := by
  induction tokens generalizing cursor with
  | nil => simp [skipNewlinesFrom, equal]
  | cons token rest ih =>
      unfold skipNewlinesFrom
      split
      · next has =>
          have newline := ((proper token (by simp)).hasKind_iff (by simp) (by simp)).1 has
          rw [Line.ofTokens_newline newline]
          exact ih (cursor.shift token rest) rfl fun other member => proper other (by simp [member])
      · rw [equal]

theorem skipEmptyLines_lines (cursor : Cursor)
    (proper : ∀ token ∈ cursor.upcoming, token.WellFormed) :
    Line.ofTokens cursor.skipEmptyLines.upcoming = Line.ofTokens cursor.upcoming :=
  skipNewlinesFrom_lines cursor cursor.upcoming rfl proper

/-! ## The end of a line -/

/-- Behind what is left of a line the cursor lands behind its end, and anything left is an error. -/
theorem expectEndOfLine_lands (cursor : Cursor) {left tail : List Token}
    (next : cursor.upcoming = left ++ tail)
    (inside : ∀ token ∈ left, token.hasKind .newline = false) (ends : LineEnd tail) :
    cursor.expectEndOfLine.2.upcoming = tail.tail ∧ LeadsTo cursor cursor.expectEndOfLine.2 ∧
      (cursor.expectEndOfLine.2.errors = cursor.errors ↔ left = []) := by
  cases left with
  | nil =>
      rw [List.nil_append] at next
      cases tail with
      | nil =>
          have none_ : cursor.hasNext = false := by simp [hasNext, next]
          simp only [expectEndOfLine, none_, Bool.not_false, if_true]
          exact ⟨next, .refl, by simp⟩
      | cons token rest =>
          have more : cursor.hasNext = true := by simp [hasNext, next]
          have tested : cursor.test .newline = true := by
            simpa [test, peek?, next] using (ends token rfl .newline).2 rfl
          simp only [expectEndOfLine, more, tested, Bool.not_true, if_true, advance_eq next]
          exact ⟨rfl, .shift next, by simp [Cursor.shift]⟩
  | cons token left =>
      have more : cursor.hasNext = true := by simp [hasNext, next]
      have tested : cursor.test .newline = false := by
        simpa [test, peek?, next] using inside token (by simp)
      simp only [expectEndOfLine, more, tested, Bool.not_true]
      have lands := skipLine_upcoming (cursor.record .unexpectedEndOfLine [.newline]) next
        (fun other member => Token.kind_ne_of_hasKind (inside other member)) ends
      have recorded := LeadsTo.record cursor .unexpectedEndOfLine [.newline]
      have skipped := skipLine_leadsTo (cursor.record .unexpectedEndOfLine [.newline])
      refine ⟨lands, recorded.trans skipped, ?_⟩
      have longer := skipped.errors.length_le
      constructor
      · intro same
        have equal := congrArg List.length same
        simp only [Cursor.record, List.length_append, List.length_singleton] at longer equal
        simp only [Bool.false_eq_true, if_false] at equal
        omega
      · simp

/-! ## At a line -/

/-- A cursor at the first token of a line, which `tail` ends. -/
structure AtLine (cursor : Cursor) (line : Line) (tail : List Token) : Prop where
  upcoming : cursor.upcoming = line.tokens ++ tail
  inside : ∀ token ∈ line.tokens, token.hasKind .newline = false
  ends : LineEnd tail
  wellFormed : ∀ token ∈ cursor.upcoming, token.WellFormed

theorem atLine {cursor : Cursor} {first : Token} {rest : List Token}
    (next : cursor.upcoming = first :: rest) (stops : first.hasKind .newline = false)
    (proper : ∀ token ∈ cursor.upcoming, token.WellFormed) :
    cursor.AtLine ⟨first, rest.takeWhile (·.kind != .newline)⟩
      (rest.dropWhile (·.kind != .newline)) := by
  have wellFormed (token : Token) (member : token ∈ first :: rest) : token.WellFormed :=
    proper token (next ▸ member)
  refine ⟨?_, ?_, ?_, proper⟩
  · rw [next, Line.tokens, List.cons_append, List.takeWhile_append_dropWhile]
  · intro token member
    rcases List.mem_cons.1 member with rfl | later
    · exact stops
    · have other := List.all_eq_true.1 List.all_takeWhile token later
      have among := List.mem_cons_of_mem first ((List.takeWhile_prefix _).subset later)
      rw [Bool.eq_false_iff, ne_eq, (wellFormed token among).hasKind_iff (by simp) (by simp)]
      simpa using other
  · apply LineEnd.of_newline
    · intro token member
      exact wellFormed token (List.mem_cons_of_mem first ((List.dropWhile_suffix _).subset member))
    · intro token member
      have stop := List.head?_dropWhile_not (·.kind != .newline) rest
      rw [member] at stop
      simpa using stop

theorem exists_atLine {cursor : Cursor} (more : cursor.hasNext = true)
    (stops : ∀ token ∈ cursor.upcoming.head?, token.hasKind .newline = false)
    (proper : ∀ token ∈ cursor.upcoming, token.WellFormed) :
    ∃ line tail, cursor.AtLine line tail := by
  cases next : cursor.upcoming with
  | nil => simp [hasNext, next] at more
  | cons first rest =>
      rw [next] at stops
      exact ⟨_, _, atLine next (stops first rfl) proper⟩

namespace AtLine

variable {cursor : Cursor} {line : Line} {tail : List Token}

theorem inside_kind (at_ : cursor.AtLine line tail) :
    ∀ token ∈ line.tokens, token.kind ≠ .newline :=
  fun token member => Token.kind_ne_of_hasKind (at_.inside token member)

theorem skipLine_upcoming (at_ : cursor.AtLine line tail) : cursor.skipLine.upcoming = tail.tail :=
  cursor.skipLine_upcoming at_.upcoming at_.inside_kind at_.ends

theorem lines (at_ : cursor.AtLine line tail) :
    Line.ofTokens cursor.upcoming = line :: Line.ofTokens tail.tail := by
  rw [at_.upcoming, Line.ofTokens_append line tail at_.inside_kind at_.ends.newline,
    at_.ends.ofTokens_tail]

theorem lineIndent (at_ : cursor.AtLine line tail) : cursor.lineIndent = line.indent := by
  simp [Cursor.lineIndent, peek?, at_.upcoming, Line.tokens, Line.indent]

theorem first_wellFormed (at_ : cursor.AtLine line tail) : line.first.WellFormed :=
  at_.wellFormed line.first (by simp [at_.upcoming, Line.tokens])

theorem test_iff (at_ : cursor.AtLine line tail) {kind : Kind} :
    cursor.test kind = true ↔ line.first.hasKind kind = true := by
  simp [test, peek?, at_.upcoming, Line.tokens]

theorem left_of_trace (at_ : cursor.AtLine line tail) {behind : Cursor}
    (trace : Trace cursor behind) :
    ∃ taken left, line.tokens = taken ++ left ∧ behind.upcoming = left ++ tail := by
  obtain ⟨taken, split, within⟩ := trace.taken
  rw [at_.upcoming] at split
  rcases List.append_eq_append_iff.1 split with ⟨more, takes, ends⟩ | ⟨left, takes, rest⟩
  · cases more with
    | nil => exact ⟨taken, [], by simp [takes], by simpa using ends.symm⟩
    | cons token more =>
        have first : token ∈ tail.head? := by simp [ends]
        exact absurd (within token (by simp [takes])) (at_.ends.not_withinLine first)
  · exact ⟨taken, left, takes, rest⟩

end AtLine

end Cursor

/-! ## Lines on their own -/

namespace Grammar

theorem kind_of_openers {kind : Kind} (member : kind ∈ openers) :
    kind ≠ .literal .string ∧ kind ≠ .python := by
  revert kind
  decide

theorem isHead_iff {cursor : Cursor} {line : Line} {tail : List Token}
    (at_ : cursor.AtLine line tail) : lineStatement.starts cursor = true ↔ line.IsHead := by
  rw [lineStatement_starts_iff]
  constructor
  · rintro ⟨kind, member, tested⟩
    obtain ⟨string, python⟩ := kind_of_openers member
    have same := (at_.first_wellFormed.hasKind_iff string python).1 (at_.test_iff.1 tested)
    rwa [Line.IsHead, same]
  · intro head
    exact ⟨line.first.kind, head, at_.test_iff.2 line.first.hasKind_self⟩

/-- A line is read up to and including its end. -/
theorem ownLine_lands {cursor : Cursor} {line : Line} {tail : List Token}
    (at_ : cursor.AtLine line tail) :
    (ownLine cursor).2.upcoming = tail.tail ∧ cursor.LeadsTo (ownLine cursor).2 := by
  unfold ownLine
  split
  · have trace := lineStatement_lineBound.parse.trace cursor
    obtain ⟨taken, left, split, next⟩ := at_.left_of_trace trace
    have inside (token : Token) (member : token ∈ left) : token.hasKind .newline = false :=
      at_.inside token (by simp [split, member])
    obtain ⟨lands, leads, -⟩ := Cursor.expectEndOfLine_lands _ next inside at_.ends
    exact ⟨lands, (Cursor.LeadsTo.of_trace trace).trans leads⟩
  · exact ⟨at_.skipLine_upcoming, cursor.skipLine_leadsTo⟩

theorem ownLine_of_isHead {cursor : Cursor} {line : Line} {tail : List Token}
    (at_ : cursor.AtLine line tail) (head : line.IsHead) :
    ∃ statement, (ownLine cursor).1 = some statement ∧
      OpenedBy line.first.kind line.first statement := by
  have starts := (isHead_iff at_).2 head
  obtain ⟨kind, member, first, rest, statement, next, has, parsed, opened, -⟩ :=
    lineStatement_parse starts
  rw [at_.upcoming, Line.tokens, List.cons_append] at next
  obtain ⟨rfl, -⟩ := List.cons.inj next
  obtain ⟨string, python⟩ := kind_of_openers member
  have same := (at_.first_wellFormed.hasKind_iff string python).1 has
  refine ⟨statement, ?_, same ▸ opened⟩
  rw [ownLine, if_pos starts, parsed]

theorem ownLine_of_not_isHead {cursor : Cursor} {line : Line} {tail : List Token}
    (at_ : cursor.AtLine line tail) (other : ¬line.IsHead) :
    ownLine cursor = (none, cursor.skipLine) := by
  rw [ownLine, if_neg fun starts => other ((isHead_iff at_).1 starts)]

/-- What a line yields depends on its own tokens and the depth alone. -/
theorem ownLine_alone {cursor : Cursor} {line : Line} {tail : List Token}
    (at_ : cursor.AtLine line tail) (head : line.IsHead) :
    (ownLine cursor).1 = (lineStatement.parse
      { source := cursor.source, upcoming := line.tokens, depth := cursor.depth }).1 := by
  have starts := (isHead_iff at_).2 head
  obtain ⟨_, -, _, _, statement, -, -, parsed, -, anyCurrent⟩ := lineStatement_parse starts
  have extends_ : Cursor.Extends tail
      { source := cursor.source, upcoming := line.tokens, depth := cursor.depth }
      { cursor with current := none } := ⟨rfl, rfl, rfl, at_.upcoming⟩
  have same := (lineStatement_lineBound.parse.extend at_.ends extends_).1
  rw [ownLine, if_pos starts, parsed, ← same, anyCurrent none]

end Grammar

end NovelScript
