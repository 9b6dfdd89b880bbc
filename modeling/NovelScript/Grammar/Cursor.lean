import NovelScript.Grammar.Error

/-!
# Cursors

A cursor goes forward through the visible tokens of a script and collects errors.  Looking never
changes it; requiring consumes or records an error; the optional forms consume or do nothing.
Nesting of labels and parentheses is counted and capped.
-/

namespace NovelScript

/-- The deepest nesting of parentheses and labels. -/
def maxNesting : Nat := 100

structure Cursor where
  source : List Char
  upcoming : List Token
  current : Option Token := none
  consumed : Nat := 0
  exhausted : Bool := false
  depth : Nat := 0
  errors : List ParseError := []
  deriving DecidableEq, Repr

namespace Cursor

def ofTokens (source : List Char) (tokens : List Token) : Cursor where
  source := source
  upcoming := tokens.filter fun token => !token.kind.isTrivia

/-! ## Looking -/

def peek? (cursor : Cursor) : Option Token := cursor.upcoming.head?

def hasNext (cursor : Cursor) : Bool := !cursor.upcoming.isEmpty

/-- Whether the next token is of a kind or an unclosed piece of it. -/
def test (cursor : Cursor) (kind : Kind) : Bool := cursor.peek?.any (·.hasKind kind)

def testText (cursor : Cursor) (text : String) : Bool :=
  cursor.peek?.any fun token => token.value cursor.source == text

def testName (cursor : Cursor) : Bool := cursor.peek?.any Token.isName

def currentText (cursor : Cursor) : String :=
  match cursor.current with
  | some token => token.value cursor.source
  | none => ""

/-- The column of the next token; at the start of a line this is its indentation. -/
def lineIndent (cursor : Cursor) : Nat :=
  match cursor.peek? with
  | some token => token.start.column
  | none => 0

/-- From `start` to the end of the last consumed token, if that comes later. -/
def spanFrom (cursor : Cursor) (start : Position) : Span :=
  match cursor.current with
  | some token => ⟨start, token.stop.max start⟩
  | none => ⟨start, start⟩

/-! ## Consuming -/

def record (cursor : Cursor) (problem : ParseProblem) (expected : List Kind) : Cursor :=
  let error : ParseError := ⟨problem, cursor.current, cursor.peek?, expected⟩
  { cursor with errors := cursor.errors ++ [error] }

def recordUnexpected (cursor : Cursor) : Cursor := cursor.record .unexpectedToken []

def shift (cursor : Cursor) (token : Token) (rest : List Token) : Cursor :=
  { cursor with upcoming := rest, current := some token, consumed := cursor.consumed + 1 }

/-- Consume the next token.  At the end of the input the first attempt is an error. -/
def advance (cursor : Cursor) : Option Token × Cursor :=
  match cursor.upcoming with
  | token :: rest => (some token, cursor.shift token rest)
  | [] =>
      if cursor.exhausted then (none, cursor)
      else (none, { cursor with exhausted := true }.record .unexpectedEndOfFile [])

def takeIf (cursor : Cursor) (accepts : Bool) (expected : List Kind) : Option Token × Cursor :=
  if accepts then cursor.advance else (none, cursor.record .unexpectedToken expected)

def requireToken (kind : Kind) (cursor : Cursor) : Option Token × Cursor :=
  cursor.takeIf (cursor.test kind) [kind]

def requireName (cursor : Cursor) : Option Token × Cursor :=
  cursor.takeIf cursor.testName [.identifier]

def requireAny (kinds : List Kind) (cursor : Cursor) : Option Token × Cursor :=
  cursor.takeIf (kinds.any cursor.test) kinds

def optionalToken (kind : Kind) (cursor : Cursor) : Option Token × Cursor :=
  if cursor.test kind then cursor.advance else (none, cursor)

/-! ## Lines -/

def skipLineFrom (cursor : Cursor) : List Token → Cursor
  | [] => cursor
  | token :: rest =>
      let next := cursor.shift token rest
      if token.kind = .newline then next else skipLineFrom next rest

def skipLine (cursor : Cursor) : Cursor := cursor.skipLineFrom cursor.upcoming

def skipRestFrom (cursor : Cursor) : List Token → Cursor
  | [] => cursor
  | token :: rest =>
      if token.hasKind .newline then cursor else skipRestFrom (cursor.shift token rest) rest

def skipRestOfLine (cursor : Cursor) : Cursor := cursor.skipRestFrom cursor.upcoming

def skipNewlinesFrom (cursor : Cursor) : List Token → Cursor
  | [] => cursor
  | token :: rest =>
      if token.hasKind .newline then skipNewlinesFrom (cursor.shift token rest) rest else cursor

def skipEmptyLines (cursor : Cursor) : Cursor := cursor.skipNewlinesFrom cursor.upcoming

/-- Require the end of the line or of the input.  Anything else is one error, and the rest of the
line is skipped. -/
def expectEndOfLine (cursor : Cursor) : Bool × Cursor :=
  if !cursor.hasNext then (true, cursor)
  else if cursor.test .newline then (true, cursor.advance.2)
  else (false, (cursor.record .unexpectedEndOfLine [.newline]).skipLine)

/-! ## Nesting -/

def enterNested (cursor : Cursor) : Bool × Cursor :=
  if cursor.depth ≥ maxNesting then (false, cursor.recordUnexpected)
  else (true, { cursor with depth := cursor.depth + 1 })

def leaveNested (cursor : Cursor) : Cursor := { cursor with depth := cursor.depth - 1 }

def levels (cursor : Cursor) : Nat := maxNesting - cursor.depth

/-! ## Tokens that are left -/

@[simp] theorem record_upcoming (cursor : Cursor) (problem : ParseProblem)
    (expected : List Kind) : (cursor.record problem expected).upcoming = cursor.upcoming := rfl

@[simp] theorem recordUnexpected_upcoming (cursor : Cursor) :
    cursor.recordUnexpected.upcoming = cursor.upcoming := rfl

@[simp] theorem shift_upcoming (cursor : Cursor) (token : Token) (rest : List Token) :
    (cursor.shift token rest).upcoming = rest := rfl

@[simp] theorem leaveNested_upcoming (cursor : Cursor) :
    cursor.leaveNested.upcoming = cursor.upcoming := rfl

@[simp] theorem enterNested_upcoming (cursor : Cursor) :
    cursor.enterNested.2.upcoming = cursor.upcoming := by
  unfold enterNested
  split <;> rfl

/-- Where a level is refused, the error is all that there is. -/
theorem eq_recordUnexpected_of_refused {cursor stuck : Cursor}
    (refused : cursor.enterNested = (false, stuck)) : stuck = cursor.recordUnexpected := by
  unfold enterNested at refused
  split at refused <;> cases refused
  rfl

theorem levels_of_entered {cursor inside : Cursor}
    (entered : cursor.enterNested = (true, inside)) : cursor.levels = inside.levels + 1 := by
  unfold enterNested at entered
  split at entered <;> cases entered
  unfold levels
  dsimp only
  omega

@[simp] theorem advance_upcoming (cursor : Cursor) :
    cursor.advance.2.upcoming = cursor.upcoming.tail := by
  unfold advance
  split
  · next token rest equal => simp [equal]
  · next equal => split <;> simp [equal]

theorem upcoming_ne_nil_of_test {cursor : Cursor} {kind : Kind} (tested : cursor.test kind = true) :
    cursor.upcoming ≠ [] := by
  intro equal
  simp [test, peek?, equal] at tested

theorem skipLineFrom_suffix (cursor : Cursor) (tokens : List Token)
    (equal : cursor.upcoming = tokens) : (cursor.skipLineFrom tokens).upcoming <:+ tokens := by
  induction tokens generalizing cursor with
  | nil => simp [skipLineFrom, equal]
  | cons token rest ih =>
      unfold skipLineFrom
      dsimp only
      split
      · exact List.suffix_cons token rest
      · exact (ih (cursor.shift token rest) rfl).trans (List.suffix_cons token rest)

theorem skipLine_suffix (cursor : Cursor) : cursor.skipLine.upcoming <:+ cursor.upcoming :=
  skipLineFrom_suffix cursor cursor.upcoming rfl

theorem skipRestFrom_suffix (cursor : Cursor) (tokens : List Token)
    (equal : cursor.upcoming = tokens) : (cursor.skipRestFrom tokens).upcoming <:+ tokens := by
  induction tokens generalizing cursor with
  | nil => simp [skipRestFrom, equal]
  | cons token rest ih =>
      unfold skipRestFrom
      split
      · exact equal ▸ List.suffix_refl _
      · exact (ih (cursor.shift token rest) rfl).trans (List.suffix_cons token rest)

theorem skipRestOfLine_suffix (cursor : Cursor) :
    cursor.skipRestOfLine.upcoming <:+ cursor.upcoming :=
  skipRestFrom_suffix cursor cursor.upcoming rfl

theorem skipNewlinesFrom_suffix (cursor : Cursor) (tokens : List Token)
    (equal : cursor.upcoming = tokens) : (cursor.skipNewlinesFrom tokens).upcoming <:+ tokens := by
  induction tokens generalizing cursor with
  | nil => simp [skipNewlinesFrom, equal]
  | cons token rest ih =>
      unfold skipNewlinesFrom
      split
      · exact (ih (cursor.shift token rest) rfl).trans (List.suffix_cons token rest)
      · exact equal ▸ List.suffix_refl _

theorem skipEmptyLines_suffix (cursor : Cursor) :
    cursor.skipEmptyLines.upcoming <:+ cursor.upcoming :=
  skipNewlinesFrom_suffix cursor cursor.upcoming rfl

theorem expectEndOfLine_suffix (cursor : Cursor) :
    cursor.expectEndOfLine.2.upcoming <:+ cursor.upcoming := by
  unfold expectEndOfLine
  split
  · exact List.suffix_refl _
  · split
    · simpa using List.tail_suffix cursor.upcoming
    · exact skipLine_suffix (cursor.record .unexpectedEndOfLine [.newline])

theorem skipLine_length_lt {cursor : Cursor} (more : cursor.hasNext = true) :
    cursor.skipLine.upcoming.length < cursor.upcoming.length := by
  unfold skipLine
  match equal : cursor.upcoming with
  | [] => simp [hasNext, equal] at more
  | token :: rest =>
      unfold skipLineFrom
      dsimp only
      split
      · simp
      · have := (skipLineFrom_suffix (cursor.shift token rest) rest rfl).length_le
        simp; omega

/-! ## Blocks -/

def skipBlock (indent : Nat) (cursor : Cursor) : Cursor :=
  let line := cursor.skipEmptyLines
  if line.hasNext = true ∧ indent < line.lineIndent then skipBlock indent line.skipLine else line
termination_by cursor.upcoming.length
decreasing_by
  rename_i more
  exact Nat.lt_of_lt_of_le (skipLine_length_lt more.1) (skipEmptyLines_suffix cursor).length_le

theorem skipBlock_suffix (indent : Nat) (cursor : Cursor) :
    (cursor.skipBlock indent).upcoming <:+ cursor.upcoming := by
  fun_induction skipBlock indent cursor with
  | case1 cursor line more ih =>
      exact (ih.trans (skipLine_suffix line)).trans (skipEmptyLines_suffix cursor)
  | case2 cursor line done => exact skipEmptyLines_suffix cursor

end Cursor

end NovelScript
