import NovelScript.Proofs.Position
import NovelScript.Token.Stream

/-!
# Tokens cover their text

The tokens of a script lie one behind the other from its first byte to its last.  None is empty,
each ends where a character ends, and the positions at its ends are those of the line map, so that
the script can be put together again from its tokens.
-/

namespace NovelScript

open Text

/-! ## No lexeme is empty -/

namespace Lexeme

theorem core_text_ne_nil (first : Char) (rest : List Char) : (core first rest).1.text ≠ [] := by
  simp [core]

private theorem blanks_text_ne_nil {text : List Char} {lexeme : Lexeme}
    (member : lexeme ∈ blanks text) : lexeme.text ≠ [] := by
  cases text with
  | nil => simp [blanks] at member
  | cons first rest =>
      simp only [blanks, List.mem_singleton] at member
      simp [member]

theorem python_text_ne_nil {mode : PythonMode} {text : List Char} {lexeme : Lexeme}
    (member : lexeme ∈ (python mode text).1) : lexeme.text ≠ [] := by
  have scanned {length : PythonScan} (found : PythonScan.ofText mode [] = length) :
      length = .complete 0 := by
    rw [← found, PythonScan.ofText, PythonScan.length?]
    rfl
  unfold python at member
  dsimp only at member
  split at member
  · next found =>
      simp only [List.mem_append, List.mem_singleton] at member
      rcases member with blank | rfl
      · exact blanks_text_ne_nil blank
      · intro empty
        simp only [unclosed] at empty
        rw [empty] at found
        simpa using scanned found
  · exact blanks_text_ne_nil member
  · next length found =>
      simp only [List.mem_append, List.mem_singleton] at member
      rcases member with blank | rfl
      · exact blanks_text_ne_nil blank
      · intro empty
        simp only [List.take_eq_nil_iff, Nat.add_one_ne_zero, false_or] at empty
        rw [empty] at found
        simpa using scanned found

theorem fromContext_text_ne_nil {context : LineContext} {text : List Char} {lexeme : Lexeme}
    (member : lexeme ∈ fromContext context text) : lexeme.text ≠ [] := by
  fun_induction fromContext context text with
  | case1 => simp at member
  | case2 context first rest head behind following step ih =>
      rcases List.mem_cons.1 member with rfl | later
      · exact core_text_ne_nil first rest
      · exact ih later
  | case3 context first rest head behind following mode step ih =>
      rcases List.mem_cons.1 member with rfl | later
      · exact core_text_ne_nil first rest
      · rcases List.mem_append.1 later with embedded | later
        · exact python_text_ne_nil embedded
        · exact ih later

end Lexeme

theorem Text.byteLength_pos {text : List Char} (nonempty : text ≠ []) : 0 < byteLength text := by
  cases text with
  | nil => contradiction
  | cons character rest =>
      have := character.utf8Size_pos
      simp only [byteLength_cons]
      omega

/-! ## Placed lexemes -/

theorem Span.textIn_after (before text after : List Char) :
    (Span.mk (Position.origin.after before) ((Position.origin.after before).after text)).textIn
      (before ++ (text ++ after)) = text := by
  simp [textIn, Position.origin]

namespace Token

/-- Tokens one behind the other, none of them empty, from the byte `start` to the byte `stop`. -/
def Tile (start : Nat) : List Token → Nat → Prop
  | [], stop => start = stop
  | token :: rest, stop =>
      token.start.offset = start ∧ start < token.stop.offset ∧ Tile token.stop.offset rest stop

/-- Tokens that tile a text start one behind the other. -/
theorem Tile.sorted {start stop : Nat} {tokens : List Token}
    (tile : Tile start tokens stop) :
    (∀ token ∈ tokens, start ≤ token.start.offset) ∧
      tokens.Pairwise fun first second => first.start.offset < second.start.offset := by
  induction tokens generalizing start with
  | nil => simp
  | cons token rest ih =>
      obtain ⟨begins, longer, later⟩ := tile
      obtain ⟨behind, sorted⟩ := ih later
      refine ⟨?_, .cons ?_ sorted⟩
      · intro other member
        rcases List.mem_cons.1 member with rfl | member
        · exact Nat.le_of_eq begins.symm
        · have := behind other member
          omega
      · intro other member
        have := behind other member
        omega

theorem Tile.longer {start stop : Nat} {tokens : List Token}
    (tile : Tile start tokens stop) :
    ∀ token ∈ tokens, token.start.offset < token.stop.offset := by
  induction tokens generalizing start with
  | nil => simp
  | cons token rest ih =>
      obtain ⟨begins, longer, later⟩ := tile
      rintro other (_ | ⟨_, member⟩)
      · exact begins ▸ longer
      · exact ih later other member

theorem Tile.last {start stop : Nat} {tokens : List Token} (tile : Tile start tokens stop)
    {token : Token} (found : tokens.getLast? = some token) : token.stop.offset = stop := by
  induction tokens generalizing start with
  | nil => cases found
  | cons first rest ih =>
      cases rest with
      | nil =>
          cases found
          exact tile.2.2
      | cons second rest => exact ih tile.2.2 found

/-- A token whose ends are character boundaries of the text, at their positions by line map. -/
structure Placed (source : List Char) (token : Token) : Prop where
  start_boundary : IsBoundary source token.start.offset
  stop_boundary : IsBoundary source token.stop.offset
  positions : token.span = (LineMap.ofText source).spanAt token.start.offset token.stop.offset

private theorem placed_lexeme (before text after : List Char) (kind : Kind)
    (wrapped : Option Kind) :
    Placed (before ++ (text ++ after))
      { kind, wrapped, span := ⟨Position.origin.after before,
          (Position.origin.after before).after text⟩ } := by
  have start : (Position.origin.after before).offset = byteLength before := by
    simp [Position.origin]
  have stop : ((Position.origin.after before).after text).offset =
      byteLength (before ++ text) := by
    simp [Position.origin]
  refine ⟨⟨before, text ++ after, rfl, start.symm⟩,
    ⟨before ++ text, after, (List.append_assoc ..).symm, stop.symm⟩, ?_⟩
  simp only [Token.start, Token.stop, LineMap.spanAt, start, stop]
  rw [LineMap.positionAt_byteLength, ← List.append_assoc, LineMap.positionAt_byteLength,
    Position.after_append]

theorem place_covers (before : List Char) (lexemes : List Lexeme)
    (nonempty : ∀ lexeme ∈ lexemes, lexeme.text ≠ []) :
    Tile (byteLength before) (place (Position.origin.after before) lexemes)
        (byteLength (before ++ Lexeme.joined lexemes)) ∧
      (∀ token ∈ place (Position.origin.after before) lexemes,
        Placed (before ++ Lexeme.joined lexemes) token) ∧
      TokenStream.reconstruct (before ++ Lexeme.joined lexemes)
        (place (Position.origin.after before) lexemes) = Lexeme.joined lexemes := by
  induction lexemes generalizing before with
  | nil => simp [place, Tile, TokenStream.reconstruct]
  | cons lexeme rest ih =>
      have start : (Position.origin.after before).offset = byteLength before := by
        simp [Position.origin]
      have stop : ((Position.origin.after before).after lexeme.text).offset =
          byteLength before + byteLength lexeme.text := by
        simp [Position.origin]
      have longer := byteLength_pos (nonempty lexeme (by simp))
      obtain ⟨tile, placed, text⟩ :=
        ih (before ++ lexeme.text) fun later member => nonempty later (by simp [member])
      simp only [Position.after_append, List.append_assoc] at tile placed text
      simp only [place, Lexeme.joined_cons]
      refine ⟨?_, ?_, ?_⟩
      · refine ⟨start, ?_, ?_⟩
        · simp only [Token.stop]
          omega
        · simp only [Token.stop]
          rw [stop, ← byteLength_append]
          exact tile
      · intro token member
        rcases List.mem_cons.1 member with rfl | later
        · exact placed_lexeme before lexeme.text (Lexeme.joined rest) lexeme.kind lexeme.wrapped
        · exact placed token later
      · simp only [TokenStream.reconstruct, List.flatMap_cons] at text ⊢
        rw [text]
        simp only [Span.textIn, start, stop, slice_append]

theorem ofText_tile (source : List Char) : Tile 0 (ofText source) (byteLength source) := by
  simpa [ofText] using
    (place_covers [] (Lexeme.ofText source) fun _ => Lexeme.fromContext_text_ne_nil).1

theorem ofText_placed (source : List Char) : ∀ token ∈ ofText source, Placed source token := by
  simpa [ofText] using
    (place_covers [] (Lexeme.ofText source) fun _ => Lexeme.fromContext_text_ne_nil).2.1

theorem reconstruct_ofText (source : List Char) :
    TokenStream.reconstruct source (ofText source) = source := by
  simpa [ofText] using
    (place_covers [] (Lexeme.ofText source) fun _ => Lexeme.fromContext_text_ne_nil).2.2

/-- Tokenizing loses nothing: the tokens tile the script, their ends are boundaries with the
positions of the line map, and their texts make up the script. -/
theorem ofText_lossless (source : List Char) :
    Tile 0 (ofText source) (byteLength source) ∧
      (∀ token ∈ ofText source, Placed source token) ∧
      TokenStream.reconstruct source (ofText source) = source := by
  have covered := place_covers [] (Lexeme.ofText source) fun lexeme member =>
    Lexeme.fromContext_text_ne_nil member
  simpa [ofText] using covered

end Token

end NovelScript
