import NovelScript.Proofs.Progress
import NovelScript.Proofs.Vocabulary
import NovelScript.Token.Reader

/-!
# Hidden tokens

The parser reads a stream that holds blanks and comments too, and its reader passes over them one by
one.  What the parser sees at any time is nevertheless the same as if they had never been there: the
moves of a parse are possible on either stream, with the same answers and the same view throughout.

The rules of the grammar themselves are written for a cursor that holds the visible tokens only.  A
cursor over the stream is therefore not parsed with, but led by the moves of a parse; as they depend
on nothing but the view, no parse could tell the two cursors apart.
-/

namespace NovelScript

/-! ## Readers -/

namespace TokenReader

theorem remaining_settle (hidden : List Kind) (tokens : List Token) :
    remaining ⟨hidden, settle hidden tokens⟩ =
      tokens.filter fun token => !hidden.contains token.kind := by
  induction tokens with
  | nil => rfl
  | cons token rest ih =>
      simp only [settle, List.dropWhile_cons, List.filter_cons] at ih ⊢
      cases hidden.contains token.kind with
      | true => exact ih
      | false => rfl

theorem peek?_eq (reader : TokenReader) : reader.peek? = reader.remaining.head? := by
  unfold peek? remaining
  cases reader.rest <;> rfl

theorem hasNext_eq (reader : TokenReader) : reader.hasNext = !reader.remaining.isEmpty := by
  unfold hasNext remaining
  cases reader.rest <;> rfl

theorem advance_eq (reader : TokenReader) :
    reader.advance.1 = reader.remaining.head? ∧
      reader.advance.2.remaining = reader.remaining.tail := by
  obtain ⟨hidden, rest⟩ := reader
  cases rest with
  | nil => exact ⟨rfl, rfl⟩
  | cons token rest => exact ⟨rfl, remaining_settle hidden rest⟩

end TokenReader

/-! ## Moves -/

/-- What the parser can do to its cursor. -/
inductive Move where
  | advance
  | record (problem : ParseProblem) (expected : List Kind)

namespace Cursor

def move (cursor : Cursor) : Move → Cursor
  | .advance => cursor.advance.2
  | .record problem expected => cursor.record problem expected

def after (cursor : Cursor) (moves : List Move) : Cursor := moves.foldl move cursor

/-- What the calls of `advance` among the moves return. -/
def answers (cursor : Cursor) : List Move → List (Option Token)
  | [] => []
  | .advance :: moves => cursor.advance.1 :: answers cursor.advance.2 moves
  | .record problem expected :: moves => answers (cursor.record problem expected) moves

/-- The way over a script, as moves: every call of `advance` gets the next token. -/
theorem Journey.moves {first last : Cursor} (journey : Journey first last) :
    ∃ moves tokens, first.after moves = last ∧ first.answers moves = tokens.map some ∧
      first.upcoming = tokens ++ last.upcoming := by
  induction journey with
  | stay => exact ⟨[], [], rfl, rfl, rfl⟩
  | @take cursor last token rest next later ih =>
      obtain ⟨moves, tokens, reached, answered, split⟩ := ih
      have taken := advance_eq next
      refine ⟨.advance :: moves, token :: tokens, ?_, ?_, ?_⟩
      · rw [← reached, after, List.foldl_cons, move, taken]
        rfl
      · rw [answers, taken, answered, List.map_cons]
      · rw [next, List.cons_append, ← split, shift_upcoming]
  | @record cursor last problem expected inside later ih =>
      obtain ⟨moves, tokens, reached, answered, split⟩ := ih
      exact ⟨.record problem expected :: moves, tokens, reached, answered, split⟩

end Cursor

/-! ## Cursors over a whole stream -/

/-- A cursor whose reader still holds the tokens that are hidden from the grammar. -/
structure StreamCursor where
  source : List Char
  reader : TokenReader
  current : Option Token := none
  consumed : Nat := 0
  exhausted : Bool := false
  depth : Nat := 0
  errors : List ParseError := []

namespace StreamCursor

def ofTokens (source : List Char) (tokens : List Token) : StreamCursor where
  source := source
  reader := (TokenReader.ofList tokens).hide [.comment, .whitespace]

def peek? (cursor : StreamCursor) : Option Token := cursor.reader.peek?

def hasNext (cursor : StreamCursor) : Bool := cursor.reader.hasNext

def record (cursor : StreamCursor) (problem : ParseProblem) (expected : List Kind) :
    StreamCursor :=
  let error : ParseError := ⟨problem, cursor.current, cursor.peek?, expected⟩
  { cursor with errors := cursor.errors ++ [error] }

def advance (cursor : StreamCursor) : Option Token × StreamCursor :=
  match cursor.reader.advance with
  | (some token, behind) =>
      (some token,
        { cursor with reader := behind, current := some token, consumed := cursor.consumed + 1 })
  | (none, _) =>
      if cursor.exhausted then (none, cursor)
      else (none, { cursor with exhausted := true }.record .unexpectedEndOfFile [])

def move (cursor : StreamCursor) : Move → StreamCursor
  | .advance => cursor.advance.2
  | .record problem expected => cursor.record problem expected

def after (cursor : StreamCursor) (moves : List Move) : StreamCursor := moves.foldl move cursor

def answers (cursor : StreamCursor) : List Move → List (Option Token)
  | [] => []
  | .advance :: moves => cursor.advance.1 :: answers cursor.advance.2 moves
  | .record problem expected :: moves => answers (cursor.record problem expected) moves

/-- What a cursor over a stream shows to the grammar. -/
def view (cursor : StreamCursor) : Cursor where
  source := cursor.source
  upcoming := cursor.reader.remaining
  current := cursor.current
  consumed := cursor.consumed
  exhausted := cursor.exhausted
  depth := cursor.depth
  errors := cursor.errors

/-! ## Every move shows what it would show without hidden tokens -/

theorem view_ofTokens (source : List Char) (tokens : List Token) :
    (ofTokens source tokens).view = Cursor.ofTokens source tokens := by
  have hides (kind : Kind) : [Kind.comment, Kind.whitespace].contains kind = kind.isTrivia := by
    cases kind <;> rfl
  have left := TokenReader.remaining_settle [.comment, .whitespace] tokens
  simp only [hides] at left
  simp only [view, ofTokens, Cursor.ofTokens, TokenReader.hide, TokenReader.ofList, left]

theorem peek?_eq (cursor : StreamCursor) : cursor.peek? = cursor.view.peek? :=
  cursor.reader.peek?_eq

theorem hasNext_eq (cursor : StreamCursor) : cursor.hasNext = cursor.view.hasNext :=
  cursor.reader.hasNext_eq

theorem view_record (cursor : StreamCursor) (problem : ParseProblem) (expected : List Kind) :
    (cursor.record problem expected).view = cursor.view.record problem expected := by
  simp only [record, Cursor.record, view, cursor.peek?_eq]

theorem view_advance (cursor : StreamCursor) :
    cursor.advance.1 = cursor.view.advance.1 ∧
      cursor.advance.2.view = cursor.view.advance.2 := by
  obtain ⟨source, ⟨hidden, rest⟩, current, consumed, exhausted, depth, errors⟩ := cursor
  cases rest with
  | cons token rest =>
      refine ⟨rfl, ?_⟩
      simp only [advance, TokenReader.advance, view, TokenReader.remaining_settle]
      rfl
  | nil => cases exhausted <;> exact ⟨rfl, rfl⟩

theorem view_move (cursor : StreamCursor) (move : Move) :
    (cursor.move move).view = cursor.view.move move := by
  cases move with
  | advance => exact cursor.view_advance.2
  | record problem expected => exact cursor.view_record problem expected

/-- The run of moves. -/
theorem view_after (cursor : StreamCursor) (moves : List Move) :
    (cursor.after moves).view = cursor.view.after moves := by
  induction moves generalizing cursor with
  | nil => rfl
  | cons move moves ih =>
      have later := ih (cursor.move move)
      rw [view_move] at later
      exact later

theorem answers_eq (cursor : StreamCursor) (moves : List Move) :
    cursor.answers moves = cursor.view.answers moves := by
  induction moves generalizing cursor with
  | nil => rfl
  | cons move moves ih =>
      cases move with
      | advance =>
          rw [answers, Cursor.answers, ih, cursor.view_advance.1, cursor.view_advance.2]
      | record problem expected => rw [answers, Cursor.answers, ih, view_record]

end StreamCursor

/-! ## Whole parses -/

open Grammar

/-- A parse of a script, as moves of a cursor over a stream that holds its tokens: where the moves
end, what their calls of `advance` return, and what there is to see before each of them. -/
structure StreamCursor.IsParse (source : List Char) (tokens : List Token) (moves : List Move) :
    Prop where
  ends : ((ofTokens source tokens).after moves).view =
    (block none (Cursor.ofTokens source tokens)).2
  answers : (ofTokens source tokens).answers moves =
    (tokens.filter fun token => !token.kind.isTrivia).map some
  sees : ∀ before, before <+: moves →
    ((ofTokens source tokens).after before).view = (Cursor.ofTokens source tokens).after before ∧
    ((ofTokens source tokens).after before).peek? =
      ((Cursor.ofTokens source tokens).after before).peek? ∧
    ((ofTokens source tokens).after before).hasNext =
      ((Cursor.ofTokens source tokens).after before).hasNext

/-- The moves that the visible tokens make are moves over every stream that shows them. -/
theorem StreamCursor.exists_isParse (source : List Char) (visible : List Token) :
    ∃ moves, ∀ tokens, (tokens.filter fun token => !token.kind.isTrivia) = visible →
      IsParse source tokens moves := by
  -- The moves are found where nothing is hidden, so that they are the same for all the streams.
  obtain ⟨moves, taken, reached, answered, split⟩ :=
    (block_journey none { source := source, upcoming := visible }).moves
  rw [block_upcoming, List.append_nil] at split
  refine ⟨moves, ?_⟩
  rintro tokens rfl
  have start := view_ofTokens source tokens
  constructor
  · rw [view_after, start]
    exact reached
  · rw [answers_eq, start]
    exact answered.trans (congrArg _ split.symm)
  · intro before _
    rw [peek?_eq, hasNext_eq, view_after, start]
    exact ⟨rfl, rfl, rfl⟩

/-- The grammar sees nothing but the visible tokens.  Two streams that show the same ones have the
same statements and errors, and the parser moves over both in the same way. -/
theorem Document.ofTokens_of_visible_eq (source : List Char) {tokens others : List Token}
    (same : (tokens.filter fun token => !token.kind.isTrivia) =
      others.filter fun token => !token.kind.isTrivia) :
    (ofTokens source tokens).1.statements = (ofTokens source others).1.statements ∧
    (ofTokens source tokens).2 = (ofTokens source others).2 ∧
    ∃ moves, StreamCursor.IsParse source tokens moves ∧
      StreamCursor.IsParse source others moves := by
  obtain ⟨moves, parses⟩ :=
    StreamCursor.exists_isParse source (others.filter fun token => !token.kind.isTrivia)
  have start : Cursor.ofTokens source tokens = Cursor.ofTokens source others := by
    simp only [Cursor.ofTokens, same]
  refine ⟨?_, ?_, moves, parses tokens same, parses others rfl⟩
  · simp only [ofTokens, start]
  · simp only [ofTokens, start]

/-- Comments stand in front, behind and between. -/
private def commented : List Char := "# a\n jump b # c\n# d".toList

theorem Document.commented_of_visible_eq :
    ((Token.ofText commented).filter fun token => !token.kind.isTrivia) =
        ((Token.visible commented).filter fun token => !token.kind.isTrivia) ∧
      (ofText commented).1.statements =
        (ofTokens commented (Token.visible commented)).1.statements ∧
      (ofText commented).2 = (ofTokens commented (Token.visible commented)).2 ∧
      ∃ moves, StreamCursor.IsParse commented (Token.ofText commented) moves ∧
        StreamCursor.IsParse commented (Token.visible commented) moves := by
  have same : ((Token.ofText commented).filter fun token => !token.kind.isTrivia) =
      (Token.visible commented).filter fun token => !token.kind.isTrivia := by
    decide +kernel
  exact ⟨same, ofTokens_of_visible_eq commented same⟩

end NovelScript
