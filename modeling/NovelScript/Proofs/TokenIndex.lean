import NovelScript.Proofs.Bisection
import NovelScript.Proofs.Coverage

/-!
# Tokens by offset

Tokens that lie one behind the other share the bytes between their ends out among them, each byte to
one token.  A stream of such tokens answers at every position with the token of the byte there, and
past its last token with none.
-/

namespace NovelScript

open Text

namespace Token

/-- Whether the byte at an offset belongs to a token. -/
def covers (offset : Nat) (token : Token) : Bool :=
  token.start.offset ≤ offset && offset < token.stop.offset

theorem covers_iff {offset : Nat} {token : Token} :
    token.covers offset = true ↔ token.start.offset ≤ offset ∧ offset < token.stop.offset := by
  simp [covers]

namespace Tile

variable {start stop offset : Nat} {tokens : List Token}

theorem stop_le (tile : Tile start tokens stop) :
    start ≤ stop ∧ ∀ token ∈ tokens, token.stop.offset ≤ stop := by
  induction tokens generalizing start with
  | nil => exact ⟨Nat.le_of_eq tile, by simp⟩
  | cons token rest ih =>
      obtain ⟨begins, longer, behind⟩ := tile
      obtain ⟨further, ends⟩ := ih behind
      refine ⟨by omega, fun other member => ?_⟩
      rcases List.mem_cons.1 member with rfl | later
      · exact further
      · exact ends other later

theorem stop_le_start (tile : Tile start tokens stop) :
    tokens.Pairwise fun first second => first.stop.offset ≤ second.start.offset := by
  induction tokens generalizing start with
  | nil => exact .nil
  | cons token rest ih => exact .cons tile.2.2.sorted.1 (ih tile.2.2)

theorem downward (tile : Tile start tokens stop) (offset : Nat) :
    Bisection.Downward (·.stop.offset ≤ offset) tokens := by
  refine tile.stop_le_start.imp_of_mem fun {first second} _ member behind ended => ?_
  have longer := tile.longer second member
  simp only [decide_eq_true_eq] at ended ⊢
  omega

theorem exists_covers (tile : Tile start tokens stop) (begins : start ≤ offset)
    (ends : offset < stop) : ∃ token ∈ tokens, token.covers offset = true := by
  induction tokens generalizing start with
  | nil =>
      have meet : start = stop := tile
      omega
  | cons token rest ih =>
      obtain ⟨here, -, behind⟩ := tile
      by_cases inside : offset < token.stop.offset
      · exact ⟨token, List.mem_cons_self, covers_iff.2 ⟨by omega, inside⟩⟩
      · obtain ⟨other, member, found⟩ := ih behind (Nat.le_of_not_lt inside)
        exact ⟨other, List.mem_cons_of_mem token member, found⟩

theorem covers_unique (tile : Tile start tokens stop) {index other : Nat} {one two : Token}
    (first : tokens[index]? = some one) (second : tokens[other]? = some two)
    (inOne : one.covers offset = true) (inTwo : two.covers offset = true) : index = other := by
  have before {index other : Nat} {one two : Token} (first : tokens[index]? = some one)
      (second : tokens[other]? = some two) (inOne : one.covers offset = true)
      (inTwo : two.covers offset = true) : ¬ index < other := by
    intro smaller
    obtain ⟨here, rfl⟩ := List.getElem?_eq_some_iff.1 first
    obtain ⟨there, rfl⟩ := List.getElem?_eq_some_iff.1 second
    have behind := List.pairwise_iff_getElem.1 tile.stop_le_start index other here there smaller
    rw [covers_iff] at inOne inTwo
    omega
  have := before first second inOne inTwo
  have := before second first inTwo inOne
  omega

/-- The first token that ends behind an offset holds the byte there, or none does. -/
theorem find?_covers (tile : Tile start tokens stop) (offset : Nat) :
    (tokens.find? fun token => !decide (token.stop.offset ≤ offset)).filter
        (·.start.offset ≤ offset) = tokens.find? (covers offset) := by
  induction tokens generalizing start with
  | nil => rfl
  | cons token rest ih =>
      obtain ⟨-, -, behind⟩ := tile
      by_cases ended : token.stop.offset ≤ offset
      · have out : token.covers offset = false := by simp [covers, ended]
        rw [List.find?_cons_of_neg (by simp [ended]), List.find?_cons_of_neg (by simp [out])]
        exact ih behind
      · rw [List.find?_cons_of_pos (by simp [ended])]
        by_cases begun : token.start.offset ≤ offset
        · have inside : token.covers offset = true := covers_iff.2 ⟨begun, by omega⟩
          rw [List.find?_cons_of_pos inside]
          simp [begun]
        · -- All further tokens start behind this one, which starts too late itself.
          have none_ : ∀ other ∈ token :: rest, ¬ other.covers offset = true := by
            intro other member
            rw [covers_iff]
            rcases List.mem_cons.1 member with rfl | later
            · omega
            · have := behind.sorted.1 other later
              omega
          rw [List.find?_eq_none.2 none_]
          exact Option.filter_some_neg (by simpa using begun)

end Tile

end Token

namespace TokenStream

/-- What a stream of tokens between two offsets answers at a position.  Within, it is the one token
that the byte there belongs to, which a search from the first token on finds too; where two tokens
meet, it is the one that starts there. -/
structure Indexes (start stop : Nat) (tokens : TokenStream) (position : Position) : Prop where
  inside : start ≤ position.offset → position.offset < stop →
    ∃ (index : Nat) (token : Token), tokens[index]? = some token ∧
      token.covers position.offset = true ∧ tokenAt? tokens position = some token ∧
      ∀ (other : Nat) (rival : Token), tokens[other]? = some rival →
        rival.covers position.offset = true → other = index
  outside : position.offset < start ∨ stop ≤ position.offset → tokenAt? tokens position = none
  search : tokenAt? tokens position = tokens.find? (Token.covers position.offset)
  meeting : ∀ (before : List Token) (first second : Token) (after : List Token),
    tokens = before ++ first :: second :: after →
      first.stop.offset = second.start.offset ∧
        (second.start.offset = position.offset → tokenAt? tokens position = some second)

theorem tokenAt?_eq_find? {start stop : Nat} {tokens : TokenStream}
    (tile : Token.Tile start tokens stop) (position : Position) :
    tokenAt? tokens position = tokens.find? (Token.covers position.offset) := by
  unfold tokenAt?
  dsimp only
  rw [(tile.downward position.offset).getElem?_firstFailing]
  exact tile.find?_covers position.offset

theorem tokenAt?_of_covers {start stop : Nat} {tokens : TokenStream}
    (tile : Token.Tile start tokens stop) {position : Position} {token : Token}
    (member : token ∈ tokens) (inside : token.covers position.offset = true) :
    tokenAt? tokens position = some token := by
  rw [tokenAt?_eq_find? tile]
  cases found : tokens.find? (Token.covers position.offset) with
  | none => exact absurd inside (List.find?_eq_none.1 found token member)
  | some other =>
      obtain ⟨index, here⟩ := List.mem_iff_getElem?.1 member
      obtain ⟨place, there⟩ := List.mem_iff_getElem?.1 (List.mem_of_find?_eq_some found)
      have same := tile.covers_unique there here (List.find?_some found) inside
      rw [← here, ← there, same]

theorem indexes_of_tile {start stop : Nat} {tokens : TokenStream}
    (tile : Token.Tile start tokens stop) (position : Position) :
    Indexes start stop tokens position := by
  refine ⟨fun begins ends => ?_, fun out => ?_, tokenAt?_eq_find? tile position, ?_⟩
  · obtain ⟨token, member, inside⟩ := tile.exists_covers begins ends
    obtain ⟨index, found⟩ := List.mem_iff_getElem?.1 member
    exact ⟨index, token, found, inside, tokenAt?_of_covers tile member inside,
      fun other rival there covered => tile.covers_unique there found covered inside⟩
  · rw [tokenAt?_eq_find? tile, List.find?_eq_none]
    intro token member inside
    have begins := tile.sorted.1 token member
    have ends := tile.stop_le.2 token member
    rw [Token.covers_iff] at inside
    omega
  · rintro before first second after rfl
    have member : second ∈ before ++ first :: second :: after := by simp
    have longer := tile.longer second member
    have meet : first.stop.offset = second.start.offset := by
      clear longer member
      induction before generalizing start with
      | nil => exact tile.2.2.1.symm
      | cons token before ih => exact ih tile.2.2
    exact ⟨meet, fun here => tokenAt?_of_covers tile member (Token.covers_iff.2 (by omega))⟩

/-- The tokens of a script answer at every position with the token of the byte there, and past the
end of the script with none; so do any tokens that lie one behind the other and are not empty. -/
theorem ofText_indexes :
    (∀ (source : List Char) (position : Position),
      Indexes 0 (byteLength source) (Token.ofText source) position) ∧
    ∀ (start stop : Nat) (tokens : TokenStream), Token.Tile start tokens stop →
      ∀ position : Position, Indexes start stop tokens position :=
  ⟨fun source position => indexes_of_tile (Token.ofText_tile source) position,
    fun _ _ _ tile position => indexes_of_tile tile position⟩

end TokenStream

end NovelScript
