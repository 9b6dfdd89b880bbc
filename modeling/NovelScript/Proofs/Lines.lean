import NovelScript.Proofs.OwnLine

/-!
# Lines and indentation

The visible tokens of a script fall into lines.  Indentation alone says which labels a line stands
inside: those above it that neither the line nor any line in between is indented level with or
outside of.  How a block of lines splits into a label, the lines below it and those behind it
follows from that.
-/

namespace NovelScript

/-- A line that is not blank, by its visible tokens. -/
structure Line where
  first : Token
  rest : List Token
  deriving DecidableEq, Repr

namespace Line

def tokens (line : Line) : List Token := line.first :: line.rest

def indent (line : Line) : Nat := line.first.start.column

def IsHead (line : Line) : Prop := line.first.kind ∈ Grammar.openers

def IsLabel (line : Line) : Prop := line.first.kind = .keyword .label

instance (line : Line) : Decidable line.IsHead := inferInstanceAs (Decidable (_ ∈ _))

instance (line : Line) : Decidable line.IsLabel := inferInstanceAs (Decidable (_ = _))

/-- The lines that newlines cut tokens into, without blank ones. -/
def ofTokens : List Token → List Line
  | [] => []
  | token :: rest =>
      if token.kind = .newline then ofTokens rest
      else
        ⟨token, rest.takeWhile (·.kind != .newline)⟩ ::
          ofTokens (rest.dropWhile (·.kind != .newline))
termination_by tokens => tokens.length
decreasing_by
  · simp
  · have shorter := (List.dropWhile_suffix (l := rest) (·.kind != .newline)).length_le
    simp only [List.length_cons]
    omega

@[simp] theorem ofTokens_nil : ofTokens [] = [] := by rw [ofTokens]

theorem ofTokens_newline {token : Token} (newline : token.kind = .newline) (rest : List Token) :
    ofTokens (token :: rest) = ofTokens rest := by
  rw [ofTokens, if_pos newline]

theorem ofTokens_append (line : Line) (tail : List Token)
    (inside : ∀ token ∈ line.tokens, token.kind ≠ .newline)
    (ends : ∀ token ∈ tail.head?, token.kind = .newline) :
    ofTokens (line.tokens ++ tail) = line :: ofTokens tail := by
  have first : line.first.kind ≠ .newline := inside line.first (by simp [tokens])
  have kept (token : Token) (member : token ∈ line.rest) : (token.kind != .newline) = true := by
    simpa using inside token (by simp [tokens, member])
  have stops : tail.takeWhile (·.kind != .newline) = [] ∧
      tail.dropWhile (·.kind != .newline) = tail := by
    cases tail with
    | nil => simp
    | cons token rest => simp [ends token (by simp)]
  rw [tokens, List.cons_append, ofTokens, if_neg first]
  rw [List.takeWhile_append_of_pos kept, List.dropWhile_append_of_pos kept, stops.1, stops.2,
    List.append_nil]

/-- Whether all of the lines are indented deeper than a column. -/
def Deeper (column : Nat) (lines : List Line) : Prop := ∀ line ∈ lines, column < line.indent

instance (column : Nat) (lines : List Line) : Decidable (Deeper column lines) :=
  inferInstanceAs (Decidable (∀ line ∈ lines, _))

/-! ## Labels around a line -/

/-- The labels among the lines before `line` that it stands inside, innermost first. -/
def enclosing : List Line → Line → List Line
  | [], _ => []
  | upper :: between, line =>
      enclosing between line ++
        if upper.IsLabel ∧ Deeper upper.indent (between ++ [line]) then [upper] else []

theorem enclosing_cons (upper : Line) (between : List Line) (line : Line) :
    enclosing (upper :: between) line = enclosing between line ++
      if upper.IsLabel ∧ Deeper upper.indent (between ++ [line]) then [upper] else [] := rfl

theorem enclosing_append {closed before : List Line} {line : Line}
    (closes : ∃ closer ∈ before ++ [line], ∀ upper ∈ closed, closer.indent ≤ upper.indent) :
    enclosing (closed ++ before) line = enclosing before line := by
  obtain ⟨closer, later, outside⟩ := closes
  induction closed with
  | nil => rfl
  | cons upper closed ih =>
      have open_ : ¬Deeper upper.indent (closed ++ before ++ [line]) := by
        intro deeper
        have inside := deeper closer (by
          rw [List.append_assoc]
          exact List.mem_append_right _ later)
        have outer := outside upper (by simp)
        omega
      rw [List.cons_append, enclosing_cons, if_neg fun both => open_ both.2, List.append_nil]
      exact ih fun other member => outside other (by simp [member])

theorem enclosing_cons_of_not_isLabel {upper : Line} (other : ¬upper.IsLabel)
    (before : List Line) (line : Line) :
    enclosing (upper :: before) line = enclosing before line := by
  rw [enclosing_cons, if_neg fun both => other both.1, List.append_nil]

/-- The labels around a line inside a label are those further in, the label, and those around the
label. -/
theorem enclosing_inside {upper line : Line} (label : upper.IsLabel) (outer between : List Line)
    (deeper : Deeper upper.indent (between ++ [line])) :
    enclosing (outer ++ upper :: between) line =
      enclosing between line ++ upper :: enclosing outer upper := by
  induction outer with
  | nil =>
      rw [List.nil_append, enclosing_cons, if_pos ⟨label, deeper⟩]
      rfl
  | cons further outer ih =>
      have same : Deeper further.indent (outer ++ upper :: between ++ [line]) ↔
          Deeper further.indent (outer ++ [upper]) := by
        constructor
        · intro all other member
          apply all other
          simp only [List.mem_append, List.mem_cons, List.not_mem_nil, or_false] at member ⊢
          tauto
        · intro all other member
          have above := all upper (by simp)
          by_cases inside : other ∈ between ++ [line]
          · have := deeper other inside
            omega
          · apply all other
            simp only [List.mem_append, List.mem_cons, List.not_mem_nil, or_false]
              at member inside ⊢
            tauto
      rw [List.cons_append, enclosing_cons, ih, enclosing_cons]
      simp only [same]
      rw [List.append_assoc, List.cons_append]

/-- A label around a line is above it, with deeper lines in between, and the labels further out are
those around the label. -/
theorem enclosing_split {before : List Line} {line upper : Line} {inner further : List Line}
    (split : enclosing before line = inner ++ upper :: further) :
    ∃ outer between, before = outer ++ upper :: between ∧ upper.IsLabel ∧
      Deeper upper.indent (between ++ [line]) ∧ further = enclosing outer upper := by
  induction before generalizing further with
  | nil => simp [enclosing] at split
  | cons first before ih =>
      rw [enclosing_cons] at split
      -- The label is the outermost one, or one of those found from the next line on.
      rcases List.append_eq_append_iff.1 split with
        ⟨rest, left, right⟩ | ⟨rest, left, right⟩
      · split_ifs at right with holds
        · cases rest with
          | nil =>
              simp only [List.nil_append, List.cons.injEq] at right
              obtain ⟨rfl, rfl⟩ := right
              exact ⟨[], before, rfl, holds.1, holds.2, rfl⟩
          | cons other rest => simp at right
        · simp at right
      · cases rest with
        | nil =>
            simp only [List.nil_append] at right
            split_ifs at right with holds
            · simp only [List.cons.injEq] at right
              obtain ⟨rfl, rfl⟩ := right
              exact ⟨[], before, rfl, holds.1, holds.2, rfl⟩
        | cons other rest =>
            simp only [List.cons_append, List.cons.injEq] at right
            obtain ⟨rfl, rfl⟩ := right
            obtain ⟨outer, between, rfl, label, deeper, rfl⟩ := ih left
            refine ⟨first :: outer, between, rfl, label, deeper, ?_⟩
            have whole := enclosing_inside label (first :: outer) between deeper
            rw [List.cons_append, enclosing_cons, left] at whole
            have parts : enclosing between line = inner := by
              have := enclosing_inside label outer between deeper
              rw [left] at this
              exact (List.append_cancel_right this).symm
            rw [parts, List.append_assoc, List.append_cancel_left_eq] at whole
            exact (List.cons.inj whole).2

end Line

/-! ## Sites of statements -/

/-- A line that yields a statement, with the labels around it, innermost first. -/
structure Site where
  around : List Line
  line : Line
  deriving DecidableEq, Repr

namespace Site

open Line

/-- The sites among lines that follow `before` inside the labels `above`: the statement lines that
are not nested too deep. -/
def among (above before : List Line) : List Line → List Site
  | [] => []
  | line :: rest =>
      (if line.IsHead ∧ (enclosing before line ++ above).length ≤ maxNesting then
        [⟨enclosing before line ++ above, line⟩] else []) ++
          among above (before ++ [line]) rest

def ofLines (lines : List Line) : List Site := among [] [] lines

theorem among_cons (above before : List Line) (line : Line) (rest : List Line) :
    among above before (line :: rest) =
      (if line.IsHead ∧ (enclosing before line ++ above).length ≤ maxNesting then
        [⟨enclosing before line ++ above, line⟩] else []) ++
          among above (before ++ [line]) rest := rfl

theorem among_append (above before first second : List Line) :
    among above before (first ++ second) =
      among above before first ++ among above (before ++ first) second := by
  induction first generalizing before with
  | nil => simp [among]
  | cons line first ih =>
      rw [List.cons_append, among_cons, ih, among_cons]
      simp only [List.append_assoc, List.cons_append, List.nil_append]

/-- Sites depend on the lines before them through the labels around them only. -/
private theorem among_congr {above above' before before' lines : List Line}
    (same : ∀ start line, start ++ [line] <+: lines →
      enclosing (before ++ start) line ++ above = enclosing (before' ++ start) line ++ above') :
    among above before lines = among above' before' lines := by
  induction lines generalizing before before' with
  | nil => rfl
  | cons line rest ih =>
      have here := same [] line (by simp)
      simp only [List.append_nil] at here
      rw [among_cons, among_cons, here]
      congr 1
      apply ih
      intro start other place
      have later := same (line :: start) other (by simpa using place)
      simpa only [List.append_assoc, List.cons_append, List.nil_append] using later

private theorem among_closed {above closed lines : List Line}
    (closes : ∀ line ∈ lines.head?, ∀ upper ∈ closed, line.indent ≤ upper.indent) :
    among above closed lines = among above [] lines := by
  apply among_congr
  intro start line place
  congr 1
  apply enclosing_append
  cases lines with
  | nil => simp at place
  | cons closer rest =>
      have first : closer ∈ start ++ [line] := by
        cases start with
        | nil => simpa using (List.cons_prefix_cons.1 place).1.symm
        | cons other start => simp [(List.cons_prefix_cons.1 place).1]
      exact ⟨closer, first, closes closer rfl⟩

private theorem among_below {above lines : List Line} {label : Line} (isLabel : label.IsLabel)
    (deeper : Deeper label.indent lines) :
    among above [label] lines = among (label :: above) [] lines := by
  apply among_congr
  intro start line place
  have inside : Deeper label.indent (start ++ [line]) := fun other member =>
    deeper other (place.subset member)
  have around := enclosing_inside isLabel [] start inside
  simp only [List.nil_append] at around
  rw [List.cons_append, List.nil_append, around]
  simp [enclosing]

theorem among_cons_of_not_isLabel (above : List Line) {line : Line} (other : ¬line.IsLabel)
    (rest : List Line) :
    among above [] (line :: rest) =
      (if line.IsHead ∧ above.length ≤ maxNesting then [⟨above, line⟩] else []) ++
        among above [] rest := by
  rw [among_cons]
  congr 1
  apply among_congr
  intro start later _
  rw [List.nil_append, List.cons_append, List.nil_append, enclosing_cons_of_not_isLabel other]

/-- A label has the deeper lines behind it inside; the first line that is not deeper closes it. -/
theorem among_cons_of_isLabel (above : List Line) {label : Line} (isLabel : label.IsLabel)
    {body after : List Line} (deeper : Deeper label.indent body)
    (closes : ∀ line ∈ after.head?, line.indent ≤ label.indent) :
    among above [] (label :: (body ++ after)) =
      (if above.length ≤ maxNesting then [⟨above, label⟩] else []) ++
        (among (label :: above) [] body ++ among above [] after) := by
  have head : label.IsHead := by
    rw [IsHead, show label.first.kind = _ from isLabel]
    simp [Grammar.openers]
  have behind : among above ([] ++ [label] ++ body) after = among above [] after := by
    apply among_closed
    intro line first upper member
    have outside := closes line first
    simp only [List.nil_append, List.cons_append, List.mem_cons] at member
    rcases member with rfl | member
    · exact outside
    · have := deeper upper member
      omega
  rw [among_cons, among_append, behind, List.nil_append, among_below isLabel deeper]
  simp [enclosing, head]

theorem among_of_length_lt {above : List Line} (deep : maxNesting < above.length)
    (before lines : List Line) : among above before lines = [] := by
  induction lines generalizing before with
  | nil => rfl
  | cons line rest ih =>
      have capped : ¬(enclosing before line ++ above).length ≤ maxNesting := by
        rw [List.length_append]
        omega
      rw [among_cons, if_neg fun both => capped both.2, ih, List.nil_append]

end Site

end NovelScript
