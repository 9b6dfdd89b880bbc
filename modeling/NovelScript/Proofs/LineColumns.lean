import Mathlib.Algebra.Ring.Nat
import NovelScript.Proofs.Bisection
import NovelScript.Proofs.SpanTree

/-!
# Lines and columns

Offsets of a text and its lines and columns are two names for the same places.  Looking up the line
and column of an offset gives the offset back, a line and column lead to an offset that has them,
and both are in the same order.  All this holds for columns that are not so large that the sum with
the start of their line is no word of 64 bits; those lead to a place in front of their line.
-/

namespace NovelScript

open Text

/-! ## Sums of words -/

namespace LineMap

variable {one two : Nat}

theorem wordSum_eq_mod (one two : Nat) : wordSum one two = (one + two) % UInt64.size := by
  simp [wordSum, UInt64.size]

theorem wordSum_of_lt (fits : one + two < UInt64.size) : wordSum one two = one + two := by
  rw [wordSum_eq_mod, Nat.mod_eq_of_lt fits]

theorem wordSum_of_le (first : one < UInt64.size) (second : two < UInt64.size)
    (large : UInt64.size ≤ one + two) : wordSum one two = one + two - UInt64.size := by
  rw [wordSum_eq_mod, Nat.mod_eq_sub_mod large, Nat.mod_eq_of_lt (by omega)]

end LineMap

/-! ## Checked steps -/

/-- A difference that must not fall below zero. -/
def minus? (whole part : Nat) : Option Nat := if part ≤ whole then some (whole - part) else none

theorem minus?_of_le {whole part : Nat} (fits : part ≤ whole) :
    minus? whole part = some (whole - part) := if_pos fits

namespace Bisection

/-- Where a number stands in ascending items, or else where it would have to be put in. -/
def locate (target : Nat) (items : Array Nat) : Except Nat Nat :=
  let base := narrow (· ≤ target) items 0 items.size
  match items[base]? with
  | none => .error base
  | some item =>
      if item = target then .ok base
      else .error (if item < target then base + 1 else base)

/-- The place of the number itself, or else the one in front of where it would be put in. -/
def upTo? : Except Nat Nat → Option Nat
  | .ok place => some place
  | .error place => minus? place 1

end Bisection

namespace LineMap

/-- The position of an offset by bisection of the line starts, with every index and every difference
checked. -/
def positionAt? (lines : LineMap) (offset : Nat) : Option Position := do
  let offset := min offset lines.size
  let line ← Bisection.upTo? (Bisection.locate offset lines.starts.toArray)
  let start ← lines.starts[line]?
  let column ← minus? offset start
  some ⟨line, column, offset⟩

/-- The last column of a line, with every difference checked. -/
def lineEnd? (lines : LineMap) (line : Nat) : Option Nat :=
  match lines.starts[line + 1]? with
  | some next => minus? next 1
  | none => some lines.size

/-! ## Lines of an offset -/

/-- A line map whose lines start one behind the other, the first at zero and none past the end. -/
structure Ascending (lines : LineMap) : Prop where
  first : lines.starts.head? = some 0
  sorted : lines.starts.Pairwise (· < ·)
  inside : ∀ start ∈ lines.starts, start ≤ lines.size

/-- The line that an offset is on: it starts no later, and the next one, if there is one, does. -/
structure Carries (lines : LineMap) (line start offset : Nat) : Prop where
  at_ : lines.starts[line]? = some start
  begun : start ≤ offset
  next : ∀ next ∈ lines.starts[line + 1]?, offset < next

namespace Ascending

variable {lines : LineMap} {line other start start' offset : Nat}

theorem start_lt (ascending : lines.Ascending) (one : lines.starts[line]? = some start)
    (two : lines.starts[other]? = some start') (before : line < other) : start < start' := by
  obtain ⟨here, rfl⟩ := List.getElem?_eq_some_iff.1 one
  obtain ⟨there, rfl⟩ := List.getElem?_eq_some_iff.1 two
  exact List.pairwise_iff_getElem.1 ascending.sorted line other here there before

/-- The start of a line is on it. -/
theorem carries_start (ascending : lines.Ascending) (found : lines.starts[line]? = some start) :
    lines.Carries line start start :=
  ⟨found, Nat.le_refl _, fun _ next => ascending.start_lt found next (Nat.lt_succ_self line)⟩

theorem carries_le (ascending : lines.Ascending) {further : Nat}
    (one : lines.Carries line start offset) (two : lines.Carries other start' further)
    (ordered : offset ≤ further) : line ≤ other := by
  refine Nat.le_of_not_lt fun behind => ?_
  -- Otherwise the line behind the second offset's starts in front of the first offset.
  have inside : other + 1 < lines.starts.length := by
    obtain ⟨here, -⟩ := List.getElem?_eq_some_iff.1 one.at_
    omega
  have next := List.getElem?_eq_getElem inside
  have passed := two.next _ next
  have begun := one.begun
  rcases Nat.eq_or_lt_of_le (Nat.succ_le_of_lt behind) with same | earlier
  · have equal := next.symm.trans (same ▸ one.at_)
    cases equal
    omega
  · have := ascending.start_lt next one.at_ earlier
    omega

theorem carries_unique (ascending : lines.Ascending) (one : lines.Carries line start offset)
    (two : lines.Carries other start' offset) : line = other ∧ start = start' := by
  have same := Nat.le_antisymm (ascending.carries_le one two (Nat.le_refl _))
    (ascending.carries_le two one (Nat.le_refl _))
  subst same
  exact ⟨rfl, Option.some.inj (one.at_.symm.trans two.at_)⟩

end Ascending

private theorem lineBefore_carries (offset line start : Nat) (rest : List Nat)
    (begun : start ≤ offset) :
    ∃ index start', lineBefore offset line start rest = (line + index, start') ∧
      (start :: rest)[index]? = some start' ∧ start' ≤ offset ∧
      ∀ next ∈ (start :: rest)[index + 1]?, offset < next := by
  induction rest generalizing line start with
  | nil => exact ⟨0, start, rfl, rfl, begun, by simp⟩
  | cons next rest ih =>
      by_cases reached : next ≤ offset
      · obtain ⟨index, start', equal, found, before, behind⟩ := ih (line + 1) next reached
        refine ⟨index + 1, start', ?_, found, before, behind⟩
        rw [lineBefore, if_pos reached, equal, Nat.add_assoc, Nat.add_comm 1]
      · refine ⟨0, start, ?_, rfl, begun, ?_⟩
        · rw [lineBefore, if_neg reached, Nat.add_zero]
        · simpa using reached

theorem Ascending.positionAt_eq {lines : LineMap} (ascending : lines.Ascending) (offset : Nat) :
    ∃ line start, lines.Carries line start (min offset lines.size) ∧
      lines.positionAt offset =
        ⟨line, min offset lines.size - start, min offset lines.size⟩ := by
  have first := ascending.first
  unfold positionAt
  cases starts : lines.starts with
  | nil => simp [starts] at first
  | cons start' rest =>
      obtain rfl : start' = 0 := by simpa [starts] using first
      obtain ⟨index, start, equal, found, begun, next⟩ :=
        lineBefore_carries (min offset lines.size) 0 0 rest (Nat.zero_le _)
      rw [Nat.zero_add] at equal
      refine ⟨index, start, ⟨starts ▸ found, begun, starts ▸ next⟩, ?_⟩
      exact congrArg (fun found => (⟨found.1, min offset lines.size - found.2,
        min offset lines.size⟩ : Position)) equal

theorem Carries.positionAt_eq {lines : LineMap} (ascending : lines.Ascending)
    {line start offset : Nat} (carries : lines.Carries line start offset)
    (inside : offset ≤ lines.size) :
    lines.positionAt offset = ⟨line, offset - start, offset⟩ := by
  obtain ⟨other, start', found, equal⟩ := ascending.positionAt_eq offset
  rw [Nat.min_eq_left inside] at found equal
  obtain ⟨rfl, rfl⟩ := ascending.carries_unique carries found
  exact equal

/-! ## Bisection of the lines -/

/-- The lines up to that of an offset start no later than it, and no others do. -/
theorem Carries.splits {lines : LineMap} (ascending : lines.Ascending) {line start offset : Nat}
    (carries : lines.Carries line start offset) :
    Bisection.Splits (· ≤ offset) lines.starts.toArray (line + 1) := by
  refine ⟨fun index before => ?_, fun index behind => ?_⟩
  · have inside : index < lines.starts.length := by
      obtain ⟨here, -⟩ := List.getElem?_eq_some_iff.1 carries.at_
      omega
    have found := List.getElem?_eq_getElem inside
    have begun := carries.begun
    rw [List.getElem?_toArray, found]
    rcases Nat.eq_or_lt_of_le (Nat.le_of_lt_succ before) with rfl | earlier
    · obtain same := Option.some.inj (found.symm.trans carries.at_)
      simpa [same] using begun
    · have := ascending.start_lt found carries.at_ earlier
      simp only [Option.any_some, decide_eq_true_eq]
      omega
  · rw [List.getElem?_toArray]
    cases found : lines.starts[index]? with
    | none => rfl
    | some start' =>
        obtain ⟨there, -⟩ := List.getElem?_eq_some_iff.1 found
        have inside : line + 1 < lines.starts.length := Nat.lt_of_le_of_lt behind there
        have next := List.getElem?_eq_getElem inside
        have passed := carries.next _ next
        have further : lines.starts[line + 1] ≤ start' := by
          rcases Nat.eq_or_lt_of_le behind with rfl | later
          · exact Nat.le_of_eq (Option.some.inj (next.symm.trans found))
          · exact Nat.le_of_lt (ascending.start_lt next found later)
        simp only [Option.any_some, decide_eq_false_iff_not]
        omega

theorem Carries.upTo?_locate {lines : LineMap} (ascending : lines.Ascending)
    {line start offset : Nat} (carries : lines.Carries line start offset) :
    Bisection.upTo? (Bisection.locate offset lines.starts.toArray) = some line := by
  have begun := carries.begun
  unfold Bisection.locate
  dsimp only
  rw [Bisection.narrow_size (carries.splits ascending), Nat.add_sub_cancel,
    List.getElem?_toArray, carries.at_]
  dsimp only
  by_cases here : start = offset
  · rw [if_pos here]
    rfl
  · -- The offset would be put in behind the start of its line.
    rw [if_neg here, if_pos (Nat.lt_of_le_of_ne begun here)]
    exact minus?_of_le (Nat.le_add_left 1 line)

/-- No step of the bisection leaves the list of lines or falls below zero. -/
theorem Ascending.positionAt?_eq {lines : LineMap} (ascending : lines.Ascending) (offset : Nat) :
    lines.positionAt? offset = some (lines.positionAt offset) := by
  obtain ⟨line, start, carries, equal⟩ := ascending.positionAt_eq offset
  simp only [positionAt?, carries.upTo?_locate ascending, carries.at_, minus?_of_le carries.begun,
    equal, Option.bind_eq_bind, Option.bind_some]

/-! ## Offsets of lines and columns -/

theorem Ascending.lineEnd?_eq {lines : LineMap} (ascending : lines.Ascending) {line start : Nat}
    (found : lines.starts[line]? = some start) :
    ∃ lineEnd, lines.lineEnd? line = some lineEnd ∧ ∀ offset, start ≤ offset →
      (offset ≤ lineEnd ↔ lines.Carries line start offset ∧ offset ≤ lines.size) := by
  unfold lineEnd?
  cases next : lines.starts[line + 1]? with
  | none =>
      refine ⟨lines.size, rfl, fun offset begun => ?_⟩
      exact ⟨fun inside => ⟨⟨found, begun, by simp [next]⟩, inside⟩, fun both => both.2⟩
  | some start' =>
      have longer := ascending.start_lt found next (Nat.lt_succ_self line)
      have inside := ascending.inside start' (List.mem_of_getElem? next)
      refine ⟨start' - 1, minus?_of_le (by omega), fun offset begun => ⟨fun before => ?_, ?_⟩⟩
      · refine ⟨⟨found, begun, ?_⟩, by omega⟩
        rw [next]
        rintro _ ⟨⟩
        omega
      · rintro ⟨carries, -⟩
        have := carries.next start' next
        omega

theorem positionOf?_eq {lines : LineMap} {line start lineEnd : Nat} (column : Nat)
    (found : lines.starts[line]? = some start) (ends : lines.lineEnd? line = some lineEnd) :
    lines.positionOf? line column =
      if wordSum start column ≤ lineEnd then some ⟨line, column, wordSum start column⟩
      else none := by
  unfold lineEnd? at ends
  unfold positionOf?
  rw [found]
  dsimp only
  cases next : lines.starts[line + 1]? with
  | none =>
      rw [next] at ends
      cases ends
      rfl
  | some start' =>
      rw [next] at ends
      simp only [minus?] at ends
      split at ends
      · cases ends
        rfl
      · cases ends

/-- Whether the start of a line, if there is such a line, and a column have a sum that is a word. -/
def FitsWord (lines : LineMap) (line column : Nat) : Prop :=
  ∀ start ∈ lines.lineStart? line, start + column < UInt64.size

theorem FitsWord.positionOf?_eq {lines : LineMap} {line column start lineEnd : Nat}
    (fits : lines.FitsWord line column) (found : lines.starts[line]? = some start)
    (ends : lines.lineEnd? line = some lineEnd) :
    lines.positionOf? line column =
      if start + column ≤ lineEnd then some ⟨line, column, start + column⟩ else none := by
  rw [LineMap.positionOf?_eq column found ends, wordSum_of_lt (fits start found)]

/-- A line and column that fit lead to a position exactly if it is that of an offset of the text. -/
theorem Ascending.positionOf?_eq_some_iff {lines : LineMap} (ascending : lines.Ascending)
    {line column : Nat} (fits : lines.FitsWord line column) {position : Position} :
    lines.positionOf? line column = some position ↔
      position.line = line ∧ position.column = column ∧ position.offset ≤ lines.size ∧
        lines.positionAt position.offset = position := by
  constructor
  · intro led
    cases found : lines.starts[line]? with
    | none => simp [positionOf?, found] at led
    | some start =>
        obtain ⟨lineEnd, ends, bound⟩ := ascending.lineEnd?_eq found
        rw [fits.positionOf?_eq found ends] at led
        split at led
        · next inside =>
            cases led
            obtain ⟨carries, within⟩ := (bound _ (Nat.le_add_right _ _)).1 inside
            refine ⟨rfl, rfl, within, ?_⟩
            rw [carries.positionAt_eq ascending within, Nat.add_sub_cancel_left]
        · cases led
  · rintro ⟨rfl, rfl, within, own⟩
    obtain ⟨line, start, carries, equal⟩ := ascending.positionAt_eq position.offset
    rw [Nat.min_eq_left within] at carries equal
    obtain ⟨lineEnd, ends, bound⟩ := ascending.lineEnd?_eq carries.at_
    have inside := (bound position.offset carries.begun).2 ⟨carries, within⟩
    have whole := Nat.add_sub_of_le carries.begun
    rw [← own, equal] at fits ⊢
    dsimp only at fits ⊢
    rw [fits.positionOf?_eq carries.at_ ends, whole, if_pos inside]

/-- The line and column of an offset fit. -/
theorem Ascending.fitsWord_positionAt {lines : LineMap} (ascending : lines.Ascending)
    (small : lines.size < UInt64.size) (offset : Nat) :
    lines.FitsWord (lines.positionAt offset).line (lines.positionAt offset).column := by
  obtain ⟨line, start, carries, equal⟩ := ascending.positionAt_eq offset
  rw [equal]
  intro start' found
  obtain rfl := Option.some.inj (carries.at_.symm.trans found)
  have begun := carries.begun
  have within := Nat.min_le_right offset lines.size
  dsimp only
  omega

/-- A column that does not fit leads to a place in front of its line. -/
theorem Ascending.positionOf?_of_large {lines : LineMap} (ascending : lines.Ascending)
    (small : lines.size < UInt64.size) {line column start : Nat}
    (found : lines.starts[line]? = some start) (word : column < UInt64.size)
    (large : UInt64.size ≤ start + column) :
    start + column - UInt64.size < start ∧
      lines.positionOf? line column = some ⟨line, column, start + column - UInt64.size⟩ := by
  have within := ascending.inside start (List.mem_of_getElem? found)
  have front : start + column - UInt64.size < start := by omega
  obtain ⟨lineEnd, ends, bound⟩ := ascending.lineEnd?_eq found
  have begins : start ≤ lineEnd :=
    (bound start (Nat.le_refl _)).2 ⟨ascending.carries_start found, within⟩
  refine ⟨front, ?_⟩
  rw [positionOf?_eq column found ends,
    wordSum_of_le (Nat.lt_of_le_of_lt within small) word large,
    if_pos (Nat.le_trans (Nat.le_of_lt front) begins)]

/-! ## Order -/

/-- Whether a position is that of an offset of the text. -/
def Has (lines : LineMap) (position : Position) : Prop :=
  position.offset ≤ lines.size ∧ lines.positionAt position.offset = position

/-- The positions that a line map gives out, for offsets and for lines and columns that fit. -/
inductive Gives (lines : LineMap) : Position → Prop
  | offset (offset : Nat) : Gives lines (lines.positionAt offset)
  | lineColumn {line column : Nat} {position : Position} (fits : lines.FitsWord line column)
      (led : lines.positionOf? line column = some position) : Gives lines position

theorem Ascending.has {lines : LineMap} (ascending : lines.Ascending) {position : Position}
    (gives : lines.Gives position) : lines.Has position := by
  cases gives with
  | offset offset =>
      have own := lines.positionAt_offset offset
      exact ⟨own ▸ Nat.min_le_right _ _, own ▸ lines.positionAt_min offset⟩
  | lineColumn fits led => exact ((ascending.positionOf?_eq_some_iff fits).1 led).2.2

theorem Ascending.line_column_lt {lines : LineMap} (ascending : lines.Ascending)
    {one two : Position} (first : lines.Has one) (second : lines.Has two)
    (before : one.offset < two.offset) :
    one.line < two.line ∨ one.line = two.line ∧ one.column < two.column := by
  obtain ⟨line, start, carries, equal⟩ := ascending.positionAt_eq one.offset
  obtain ⟨other, start', carries', equal'⟩ := ascending.positionAt_eq two.offset
  rw [Nat.min_eq_left first.1] at carries equal
  rw [Nat.min_eq_left second.1] at carries' equal'
  have begun := carries.begun
  rw [← first.2, ← second.2, equal, equal']
  dsimp only
  rcases Nat.eq_or_lt_of_le (ascending.carries_le carries carries' (Nat.le_of_lt before)) with
    rfl | above
  · obtain same := Option.some.inj (carries.at_.symm.trans carries'.at_)
    exact .inr ⟨rfl, by omega⟩
  · exact .inl above

/-- Offsets of a text are in the order of their lines and columns. -/
theorem Ascending.compare_eq {lines : LineMap} (ascending : lines.Ascending)
    {one two : Position} (first : lines.Has one) (second : lines.Has two) :
    one.compare two = Ord.compare one.offset two.offset ∧
      one.compare two =
        (Ord.compare one.line two.line).then (Ord.compare one.column two.column) := by
  rcases Nat.lt_trichotomy one.offset two.offset with before | same | behind
  · rw [(Position.compare_of_offset_lt before).1, Nat.compare_eq_lt.2 before]
    rcases ascending.line_column_lt first second before with above | ⟨line, left⟩
    · simp [Nat.compare_eq_lt.2 above]
    · simp [line, Nat.compare_eq_lt.2 left]
  · have equal : one = two := by rw [← first.2, ← second.2, same]
    simp [equal, Position.compare_self]
  · rw [(Position.compare_of_offset_lt behind).2, Nat.compare_eq_gt.2 behind]
    rcases ascending.line_column_lt second first behind with above | ⟨line, left⟩
    · simp [Nat.compare_eq_gt.2 above]
    · simp [line, Nat.compare_eq_gt.2 left]

/-! ## Line maps of texts -/

private theorem lineStartsFrom_ascending (offset : Nat) (text : List Char) :
    (lineStartsFrom offset text).Pairwise (· < ·) ∧
      ∀ start ∈ lineStartsFrom offset text, offset < start ∧ start ≤ offset + byteLength text := by
  induction text generalizing offset with
  | nil => simp [lineStartsFrom]
  | cons character rest ih =>
      have positive := character.utf8Size_pos
      obtain ⟨sorted, inside⟩ := ih (offset + character.utf8Size)
      have bounds : ∀ start ∈ lineStartsFrom (offset + character.utf8Size) rest,
          offset < start ∧ start ≤ offset + byteLength (character :: rest) := by
        intro start member
        have := inside start member
        rw [byteLength_cons]
        omega
      rw [lineStartsFrom]
      split
      · refine ⟨.cons (fun start member => (inside start member).1) sorted, fun start member => ?_⟩
        rcases List.mem_cons.1 member with rfl | later
        · rw [byteLength_cons]
          omega
        · exact bounds start later
      · exact ⟨sorted, bounds⟩

theorem ofText_ascending (source : List Char) : (ofText source).Ascending := by
  obtain ⟨sorted, inside⟩ := lineStartsFrom_ascending 0 source
  refine ⟨rfl, .cons (fun start member => (inside start member).1) sorted, fun start member => ?_⟩
  rcases List.mem_cons.1 member with rfl | later
  · exact Nat.zero_le _
  · have := (inside start later).2
    rwa [Nat.zero_add] at this

/-- Where lines of these texts start, one behind the other from an offset on. -/
def startsOf (offset : Nat) : List (List Char) → List Nat
  | [] => []
  | line :: rest => offset :: startsOf (offset + byteLength line + 1) rest

theorem lineStartsFrom_eq (offset : Nat) (text : List Char) :
    offset :: lineStartsFrom offset text = startsOf offset (text.splitOn '\n') := by
  induction text generalizing offset with
  | nil => rfl
  | cons character rest ih =>
      have later := ih (offset + character.utf8Size)
      rw [List.splitOn_cons_eq_if_modifyHead, lineStartsFrom]
      split
      · next newline =>
          subst newline
          simp only [beq_self_eq_true, if_true, startsOf, byteLength_nil]
          rw [later]
          rfl
      · next other =>
          rw [if_neg (by simpa using other)]
          cases lines : rest.splitOn '\n' with
          | nil => exact absurd lines (List.splitOn_ne_nil _ _)
          | cons line lines' =>
              rw [lines, startsOf] at later
              rw [(List.cons.inj later).2, List.modifyHead_cons, startsOf, byteLength_cons,
                ← Nat.add_assoc]

theorem byteLength_splitOn (text : List Char) :
    ((text.splitOn '\n').map (byteLength · + 1)).sum = byteLength text + 1 := by
  induction text with
  | nil => rfl
  | cons character rest ih =>
      rw [List.splitOn_cons_eq_if_modifyHead]
      split
      · next newline =>
          have size : character.utf8Size = 1 := by rw [eq_of_beq newline]; rfl
          rw [List.map_cons, List.sum_cons, ih, byteLength_cons, byteLength_nil, size]
          omega
      · cases lines : rest.splitOn '\n' with
        | nil => exact absurd lines (List.splitOn_ne_nil _ _)
        | cons line lines' =>
            rw [lines, List.map_cons, List.sum_cons] at ih
            rw [List.modifyHead_cons, List.map_cons, List.sum_cons, byteLength_cons,
              byteLength_cons]
            omega

private theorem startsOf_line (offset : Nat) {index : Nat} {lines : List (List Char)}
    {line : List Char} (found : lines[index]? = some line) :
    ∃ start, (startsOf offset lines)[index]? = some start ∧
      ((startsOf offset lines)[index + 1]?).getD
          (offset + (lines.map (byteLength · + 1)).sum) = start + byteLength line + 1 := by
  induction lines generalizing offset index with
  | nil => simp at found
  | cons first rest ih =>
      cases index with
      | zero =>
          cases found
          refine ⟨offset, rfl, ?_⟩
          cases rest with
          | nil => simp [startsOf, Nat.add_assoc]
          | cons second rest => simp [startsOf]
      | succ index =>
          obtain ⟨start, here, next⟩ := ih (offset + byteLength first + 1) found
          refine ⟨start, here, ?_⟩
          rw [List.map_cons, List.sum_cons, ← Nat.add_assoc, ← Nat.add_assoc]
          exact next

/-- A line ends in front of its newline, or the last one at the end of the text. -/
theorem ofText_lineEnd? {source : List Char} {index : Nat} {line : List Char}
    (found : (source.splitOn '\n')[index]? = some line) :
    ∃ start, (ofText source).starts[index]? = some start ∧
      (ofText source).lineEnd? index = some (start + byteLength line) := by
  obtain ⟨start, here, next⟩ := startsOf_line 0 found
  rw [← lineStartsFrom_eq] at here next
  rw [byteLength_splitOn, Nat.zero_add] at next
  refine ⟨start, here, ?_⟩
  unfold lineEnd?
  rw [show (ofText source).starts = 0 :: lineStartsFrom 0 source from rfl]
  cases behind : (0 :: lineStartsFrom 0 source)[index + 1]? with
  | none =>
      rw [behind] at next
      simp only [Option.getD_none] at next
      exact congrArg some (by simp only [ofText]; omega)
  | some start' =>
      rw [behind] at next
      simp only [Option.getD_some] at next
      dsimp only
      rw [next, minus?_of_le (Nat.le_add_left _ _), Nat.add_sub_cancel]

private theorem startsOf_length (offset : Nat) (lines : List (List Char)) :
    (startsOf offset lines).length = lines.length := by
  induction lines generalizing offset with
  | nil => rfl
  | cons line rest ih => rw [startsOf, List.length_cons, List.length_cons, ih]

/-- A line and column that fit are nowhere exactly if there is no such line or the column is behind
its newline, or for the last line behind the end. -/
theorem ofText_positionOf?_eq_none_iff {source : List Char} {line column : Nat}
    (fits : (ofText source).FitsWord line column) :
    (ofText source).positionOf? line column = none ↔
      ∀ text, (source.splitOn '\n')[line]? = some text → byteLength text < column := by
  cases found : (source.splitOn '\n')[line]? with
  | none =>
      have missing : (ofText source).starts[line]? = none := by
        have beyond := List.getElem?_eq_none_iff.1 found
        rw [← startsOf_length 0, ← lineStartsFrom_eq] at beyond
        exact List.getElem?_eq_none_iff.2 beyond
      simp [positionOf?, missing]
  | some text =>
      obtain ⟨start, here, ends⟩ := ofText_lineEnd? found
      rw [fits.positionOf?_eq here ends]
      simp

theorem ofText_lineEnd_le {source : List Char} {index start : Nat} {line : List Char}
    (found : (source.splitOn '\n')[index]? = some line)
    (here : (ofText source).starts[index]? = some start) :
    start + byteLength line ≤ byteLength source := by
  obtain ⟨start', here', ends⟩ := ofText_lineEnd? found
  obtain rfl := Option.some.inj (here'.symm.trans here)
  obtain ⟨lineEnd, ends', bound⟩ := (ofText_ascending source).lineEnd?_eq here
  obtain rfl := Option.some.inj (ends.symm.trans ends')
  exact ((bound _ (Nat.le_add_right ..)).1 (Nat.le_refl _)).2

/-- A column that does not fit leads somewhere, although it is behind the end of its line. -/
theorem ofText_positionOf?_of_not_fitsWord {source : List Char}
    (small : byteLength source < UInt64.size) {line column : Nat} (word : column < UInt64.size)
    (large : ¬(ofText source).FitsWord line column) :
    (∃ offset, (ofText source).positionOf? line column = some ⟨line, column, offset⟩ ∧
      offset ≤ byteLength source) ∧
    ∀ text, (source.splitOn '\n')[line]? = some text → byteLength text < column := by
  simp only [FitsWord, not_forall, Nat.not_lt] at large
  obtain ⟨start, here, large⟩ := large
  have ascending := ofText_ascending source
  have within := ascending.inside start (List.mem_of_getElem? here)
  obtain ⟨front, led⟩ := ascending.positionOf?_of_large small here word large
  refine ⟨⟨_, led, Nat.le_trans (Nat.le_of_lt front) within⟩, fun text found => ?_⟩
  have := ofText_lineEnd_le found here
  omega

/-- Where a line and column that fit lead, both orders agree.  What a column that does not fit leads
to has a smaller offset than the start of its line, but the larger column. -/
theorem ofText_compare_iff {source : List Char} (small : byteLength source < UInt64.size)
    {line column : Nat} (word : column < UInt64.size) {position : Position}
    (led : (ofText source).positionOf? line column = some position) :
    (∀ other, (ofText source).Gives other → position.compare other =
      (Ord.compare position.line other.line).then (Ord.compare position.column other.column)) ↔
        (ofText source).FitsWord line column := by
  have ascending := ofText_ascending source
  refine ⟨fun ordered => ?_, fun fits other gives => ?_⟩
  · intro start here
    by_contra large
    have within := ascending.inside start (List.mem_of_getElem? here)
    have short : start < UInt64.size := Nat.lt_of_le_of_lt within small
    have positive : 0 < column := by omega
    obtain ⟨front, found⟩ := ascending.positionOf?_of_large small here word (Nat.not_lt.1 large)
    generalize start + column - UInt64.size = offset at front found
    obtain rfl := Option.some.inj (found.symm.trans led)
    have same := ordered _ (.offset start)
    rw [(ascending.carries_start here).positionAt_eq ascending within, Nat.sub_self,
      (Position.compare_of_offset_lt front).1] at same
    simp [Nat.compare_eq_gt.2 positive] at same
  · exact (ascending.compare_eq (ascending.has (.lineColumn fits led)) (ascending.has gives)).2

private def twoLetters : List Char := ['a', '\n', 'b']

end LineMap

end NovelScript
