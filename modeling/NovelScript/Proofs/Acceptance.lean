import NovelScript.Proofs.Opening
import NovelScript.Proofs.Vocabulary
import NovelScript.Proofs.Words

/-!
# Parses and their languages

A parse accepts a language if the tokens it consumes without an error are a word of it, and if it
consumes every word of it without an error.  It may look at the token behind the word, which is why
something has to be known about what follows.
-/

namespace NovelScript

open Words

/-! ## What a word opens with, and what follows it -/

namespace Words

/-- Every word opens with a token of some sort, and so is not empty. -/
def Begins (opens : Token → Prop) (words : Language Token) : Prop :=
  ∀ word ∈ words, ∃ first ∈ word.head?, opens first

/-- What follows does not open with any of the kinds. -/
def Avoids (kinds : List Kind) (rest : List Token) : Prop :=
  ∀ token ∈ rest.head?, token.kind ∉ kinds

theorem Avoids.mono {kinds more : List Kind} {rest : List Token} (avoids : Avoids more rest)
    (subset : kinds ⊆ more) : Avoids kinds rest :=
  fun token first member => avoids token first (subset member)

variable {opens : Token → Prop} {left right : Language Token}

theorem mem_one_iff {accepts : Token → Prop} {word : List Token} :
    word ∈ one accepts ↔ ∃ token, word = [token] ∧ accepts token := Iff.rfl

theorem begins_one (accepts : Token → Prop) : Begins accepts (one accepts) := by
  rintro word ⟨token, rfl, accepted⟩
  exact ⟨token, rfl, accepted⟩

theorem Begins.mul (first : Begins opens left) : Begins opens (left * right) := by
  rintro word ⟨front, inLeft, back, -, rfl⟩
  obtain ⟨token, next, holds⟩ := first front inLeft
  exact ⟨token, by simp [List.head?_append, Option.mem_def.1 next], holds⟩

theorem Begins.add (one : Begins opens left) (two : Begins opens right) :
    Begins opens (left + right) := by
  rintro word (inLeft | inRight)
  · exact one word inLeft
  · exact two word inRight

theorem Begins.mono {more : Token → Prop} (begins : Begins opens left)
    (implies : ∀ token, opens token → more token) : Begins more left := by
  intro word member
  obtain ⟨token, next, holds⟩ := begins word member
  exact ⟨token, next, implies token holds⟩

theorem Begins.nil_notMem (begins : Begins opens left) : [] ∉ left := by
  intro member
  obtain ⟨first, next, -⟩ := begins [] member
  cases next

theorem Begins.avoids {kinds : List Kind} (begins : Begins opens left)
    (other : ∀ token, opens token → token.kind ∉ kinds) {word rest : List Token}
    (member : word ∈ left) : Avoids kinds (word ++ rest) := by
  obtain ⟨first, next, holds⟩ := begins word member
  intro token head
  rw [List.head?_append, Option.mem_def.1 next] at head
  cases head
  exact other first holds

/-- The words that do not open with a kind. -/
def without (kind : Kind) (words : Language Token) : Language Token :=
  {word ∈ words | Avoids [kind] word}

theorem begins_without (begins : Begins opens left) (kind : Kind) :
    Begins opens (without kind left) :=
  fun word member => begins word member.1

theorem Begins.without_eq {kind : Kind} (begins : Begins opens left)
    (other : ∀ token, opens token → token.kind ≠ kind) : without kind left = left := by
  ext word
  refine ⟨fun member => member.1, fun member => ⟨member, ?_⟩⟩
  have avoids : Avoids [kind] (word ++ []) := begins.avoids (by simpa using other) member
  rwa [List.append_nil] at avoids

theorem without_one (kind : Kind) : without kind 1 = 1 := by
  ext word
  refine ⟨fun member => member.1, fun member => ⟨member, ?_⟩⟩
  cases member
  simp [Avoids]

theorem without_add (kind : Kind) : without kind (left + right) = without kind left + without kind right := by
  ext word
  exact or_and_right

theorem Begins.without_mul {kind : Kind} (begins : Begins opens left) :
    without kind (left * right) = without kind left * right := by
  have same {front : List Token} (member : front ∈ left) (back : List Token) :
      Avoids [kind] (front ++ back) ↔ Avoids [kind] front := by
    obtain ⟨first, next, -⟩ := begins front member
    simp [Avoids, List.head?_append, Option.mem_def.1 next]
  ext word
  constructor
  · rintro ⟨⟨front, inLeft, back, inRight, rfl⟩, avoids⟩
    exact ⟨front, ⟨inLeft, (same inLeft back).1 avoids⟩, back, inRight, rfl⟩
  · rintro ⟨front, ⟨inLeft, avoids⟩, back, inRight, rfl⟩
    exact ⟨⟨front, inLeft, back, inRight, rfl⟩, (same inLeft back).2 avoids⟩

theorem without_single (kind : Kind) (accepts : Token → Prop) :
    without kind (one accepts) = one fun token => accepts token ∧ token.kind ≠ kind := by
  ext word
  constructor
  · rintro ⟨⟨token, rfl, accepted⟩, avoids⟩
    exact ⟨token, rfl, accepted, by simpa [Avoids] using avoids⟩
  · rintro ⟨token, rfl, accepted, other⟩
    exact ⟨⟨token, rfl, accepted⟩, by simpa [Avoids] using other⟩

end Words

theorem LineEnd.avoids {tail : List Token} (ends : LineEnd tail) {kinds : List Kind}
    (other : .newline ∉ kinds) : Avoids kinds tail := by
  intro token first member
  have newline := (ends token first token.kind).1 token.hasKind_self
  exact other (newline ▸ member)

/-- A kind that no token wraps, and that does not end a line. -/
class Kind.IsPlain (kind : Kind) : Prop where
  newline : kind ≠ .newline
  string : kind ≠ .literal .string
  python : kind ≠ .python
  invalid : kind ≠ .invalid

instance (keyword : Keyword) : Kind.IsPlain (.keyword keyword) := by constructor <;> simp

instance (operator : Operator) : Kind.IsPlain (.operator operator) := by constructor <;> simp

instance (mark : Punctuation) : Kind.IsPlain (.punctuation mark) := by constructor <;> simp

instance : Kind.IsPlain (.literal .integer) := by constructor <;> simp

instance : Kind.IsPlain .identifier := by constructor <;> simp

theorem Token.WellFormed.hasKind_plain {token : Token} (wellFormed : token.WellFormed) {kind : Kind}
    [plain : kind.IsPlain] : token.hasKind kind = true ↔ token.kind = kind :=
  wellFormed.hasKind_iff plain.string plain.python

/-! ## Cursors at a level -/

/-- A cursor with so many levels left, in front of well formed tokens. -/
structure Cursor.Fits (levels : Nat) (cursor : Cursor) : Prop where
  levels_eq : cursor.levels = levels
  wellFormed : ∀ token ∈ cursor.upcoming, token.WellFormed

namespace Cursor.Fits

variable {levels : Nat} {cursor last : Cursor}

theorem of_trace (fits : cursor.Fits levels) (trace : Cursor.Trace cursor last) :
    last.Fits levels := by
  constructor
  · rw [Cursor.levels, trace.depth_eq]
    exact fits.levels_eq
  · exact fun token member => fits.wellFormed token (trace.suffix.subset member)

theorem test_iff (fits : cursor.Fits levels) {kind : Kind} [kind.IsPlain] :
    cursor.test kind = true ↔ ∃ token ∈ cursor.upcoming.head?, token.kind = kind := by
  unfold Cursor.test Cursor.peek?
  cases next : cursor.upcoming with
  | nil => simp
  | cons token rest =>
      have proper := fits.wellFormed token (by simp [next])
      simp [proper.hasKind_plain]

end Cursor.Fits

namespace Parse

theorem tokenIf_some {β : Type} {kind : Kind} {next : Option Token → Parse β} {cursor : Cursor}
    {token : Token} {rest : List Token} (upcoming : cursor.upcoming = token :: rest)
    (tested : cursor.test kind = true) :
    (tokenIf kind >>= next) cursor = next (some token) (cursor.shift token rest) := by
  have taken : tokenIf kind cursor = (some (some token), cursor.shift token rest) := by
    simp only [tokenIf, attempt, Cursor.optionalToken, if_pos tested, Cursor.advance_eq upcoming]
  rw [bind_some (congrArg Prod.fst taken), taken]

theorem tokenIf_none {β : Type} {kind : Kind} {next : Option Token → Parse β} {cursor : Cursor}
    (tested : ¬cursor.test kind = true) :
    (tokenIf kind >>= next) cursor = next none cursor := by
  have left : tokenIf kind cursor = (some none, cursor) := by
    simp only [tokenIf, attempt, Cursor.optionalToken, if_neg tested]
  rw [bind_some (congrArg Prod.fst left), left]

/-- No error is withdrawn, so a whole without errors has parts without errors. -/
theorem clean_parts {first middle last : Cursor} (lower : first.errors <+: middle.errors)
    (upper : middle.errors <+: last.errors) (clean : last.errors = first.errors) :
    middle.errors = first.errors ∧ last.errors = middle.errors := by
  rw [clean] at upper
  have same := lower.eq_of_length (Nat.le_antisymm lower.length_le upper.length_le)
  exact ⟨same.symm, clean.trans same⟩

theorem attempt_bind_eq {α β : Type} {first : Parse α} {next : Option α → Parse β}
    {cursor : Cursor} {value : α} (found : (first cursor).1 = some value) :
    (first.attempt >>= next) cursor = (first >>= fun value => next (some value)) cursor := by
  rw [bind_some found, bind_some (congrArg some found)]
  rfl

theorem clean_of_attempt {α β : Type} {first : Parse α} {next : Option α → Parse β}
    {cursor : Cursor} (start : first.LineBound) (behind : ∀ result, (next result).LineBound)
    (clean : ((first.attempt >>= next) cursor).2.errors = cursor.errors) :
    (first cursor).2.errors = cursor.errors := by
  have attempted : (first.attempt >>= next) cursor = next (first cursor).1 (first cursor).2 :=
    bind_some rfl
  have moved := start.trace cursor
  have later := (behind (first cursor).1).trace (first cursor).2
  rw [attempted] at clean
  exact (clean_parts moved.errors_prefix later.errors_prefix clean).1

/-- What a parse consumes without an error is a word of the language, and a word of the language is
consumed without an error, given what follows it. -/
structure Accepts {α : Type} (levels : Nat) (words : Language Token)
    (follow : List Token → Prop) (parse : Parse α) : Prop where
  bound : parse.LineBound
  sound : ∀ cursor : Cursor, cursor.Fits levels → (parse cursor).2.errors = cursor.errors →
    (∃ value, (parse cursor).1 = some value) ∧
      ∃ word ∈ words, cursor.upcoming = word ++ (parse cursor).2.upcoming
  complete : ∀ cursor : Cursor, cursor.Fits levels → ∀ word ∈ words, ∀ rest,
    cursor.upcoming = word ++ rest → follow rest →
      (parse cursor).2.errors = cursor.errors ∧ (parse cursor).2.upcoming = rest

namespace Accepts

variable {α β : Type} {levels : Nat} {words left right : Language Token}
  {follow before after : List Token → Prop}

theorem of_eq {other : Language Token} {parse : Parse α} (accepts : Accepts levels words follow parse)
    (same : words = other) : Accepts levels other follow parse := same ▸ accepts

theorem follow_mono {more : List Token → Prop} {parse : Parse α}
    (accepts : Accepts levels words follow parse) (implies : ∀ rest, more rest → follow rest) :
    Accepts levels words more parse :=
  ⟨accepts.bound, accepts.sound, fun cursor fits word member rest next holds =>
    accepts.complete cursor fits word member rest next (implies rest holds)⟩

theorem pure (value : α) : Accepts levels 1 follow (pure value : Parse α) := by
  refine ⟨.pure value, ?_, ?_⟩
  · intro cursor fits clean
    exact ⟨⟨value, rfl⟩, [], rfl, rfl⟩
  · rintro cursor fits word rfl rest next -
    exact ⟨rfl, next⟩

theorem of_still {parse : Parse α} (bound : parse.LineBound)
    (still : ∀ cursor, ∃ value, parse cursor = (some value, cursor)) :
    Accepts levels 1 follow parse := by
  refine ⟨bound, ?_, ?_⟩
  · intro cursor fits clean
    obtain ⟨value, equal⟩ := still cursor
    exact ⟨⟨value, by rw [equal]⟩, [], rfl, by rw [equal]; rfl⟩
  · rintro cursor fits word rfl rest next -
    obtain ⟨value, equal⟩ := still cursor
    rw [equal]
    exact ⟨rfl, next⟩

theorem text (token : Token) : Accepts levels 1 follow (Parse.text token) :=
  of_still (text_lineBound token) fun _ => ⟨_, rfl⟩

theorem spanFrom (start : Position) : Accepts levels 1 follow (Parse.spanFrom start) :=
  of_still (spanFrom_lineBound start) fun _ => ⟨_, rfl⟩

/-- The next parse has to accept its language behind the values only that the first one yields. -/
theorem bind_of {first : Parse α} {next : α → Parse β} {yields : α → Prop}
    (start : Accepts levels left before first)
    (known : ∀ cursor : Cursor, cursor.Fits levels → ∀ value, (first cursor).1 = some value →
      yields value)
    (bound : ∀ value, (next value).LineBound)
    (behind : ∀ value, yields value → Accepts levels right after (next value))
    (follows : ∀ word ∈ right, ∀ rest, after rest → before (word ++ rest)) :
    Accepts levels (left * right) after (first >>= next) := by
  refine ⟨.bind start.bound bound, ?_, ?_⟩
  · intro cursor fits clean
    have moved := start.bound.trace cursor
    cases found : (first cursor).1 with
    | none =>
        rw [Parse.bind_none found] at clean
        obtain ⟨⟨value, some_⟩, -⟩ := start.sound cursor fits clean
        simp [found] at some_
    | some value =>
        have accepts := behind value (known cursor fits value found)
        rw [Parse.bind_some found] at clean ⊢
        have later := accepts.bound.trace (first cursor).2
        obtain ⟨clean₁, clean₂⟩ := clean_parts moved.errors_prefix later.errors_prefix clean
        obtain ⟨-, front, inLeft, one⟩ := start.sound cursor fits clean₁
        obtain ⟨ends, back, inRight, two⟩ := accepts.sound _ (fits.of_trace moved) clean₂
        refine ⟨ends, front ++ back, ⟨front, inLeft, back, inRight, rfl⟩, ?_⟩
        rw [one, two, List.append_assoc]
  · rintro cursor fits word ⟨front, inLeft, back, inRight, rfl⟩ rest split holds
    rw [List.append_assoc] at split
    obtain ⟨clean₁, lands⟩ := start.complete cursor fits front inLeft (back ++ rest) split
      (follows back inRight rest holds)
    obtain ⟨⟨value, found⟩, -⟩ := start.sound cursor fits clean₁
    have moved := start.bound.trace cursor
    have accepts := behind value (known cursor fits value found)
    obtain ⟨clean₂, ended⟩ := accepts.complete _ (fits.of_trace moved) back inRight rest lands holds
    rw [Parse.bind_some found]
    exact ⟨clean₂.trans clean₁, ended⟩

theorem bind {first : Parse α} {next : α → Parse β} (start : Accepts levels left before first)
    (behind : ∀ value, Accepts levels right after (next value))
    (follows : ∀ word ∈ right, ∀ rest, after rest → before (word ++ rest)) :
    Accepts levels (left * right) after (first >>= next) :=
  start.bind_of (fun _ _ _ _ => trivial)
    (fun value => (behind value).bound) (fun value _ => behind value) follows

theorem andThen {first : Parse α} {next : α → Parse β}
    (start : Accepts levels left (fun _ => True) first)
    (behind : ∀ value, Accepts levels right after (next value)) :
    Accepts levels (left * right) after (first >>= next) :=
  start.bind behind fun _ _ _ _ => trivial

theorem skip {first : Parse α} {next : α → Parse β}
    (start : Accepts levels 1 (fun _ => True) first)
    (behind : ∀ value, Accepts levels words after (next value)) :
    Accepts levels words after (first >>= next) :=
  (start.andThen behind).of_eq (one_mul words)

theorem finish {first : Parse α} {next : α → Parse β}
    (start : Accepts levels words follow first)
    (behind : ∀ value, Accepts levels 1 follow (next value)) :
    Accepts levels words follow (first >>= next) := by
  refine (start.bind behind ?_).of_eq (mul_one words)
  rintro word rfl rest holds
  exact holds

theorem attempt_bind {first : Parse α} {next : Option α → Parse β}
    (start : Accepts levels left before first) (fails : (next none).LineBound)
    (behind : ∀ value, Accepts levels right after (next (some value)))
    (follows : ∀ word ∈ right, ∀ rest, after rest → before (word ++ rest)) :
    Accepts levels (left * right) after (first.attempt >>= next) := by
  have whole := start.bind behind follows
  have bound (result : Option α) : (next result).LineBound := by
    cases result with
    | none => exact fails
    | some value => exact (behind value).bound
  have same {cursor : Cursor} (fits : cursor.Fits levels)
      (clean : (first cursor).2.errors = cursor.errors) :
      (first.attempt >>= next) cursor = (first >>= fun value => next (some value)) cursor := by
    obtain ⟨⟨value, found⟩, -⟩ := start.sound cursor fits clean
    exact attempt_bind_eq found
  refine ⟨.bind start.bound.attempt bound, ?_, ?_⟩
  · intro cursor fits clean
    have clean₁ := clean_of_attempt start.bound bound clean
    rw [same fits clean₁] at clean ⊢
    exact whole.sound cursor fits clean
  · intro cursor fits word member rest split holds
    obtain ⟨clean, ended⟩ := whole.complete cursor fits word member rest split holds
    obtain ⟨front, inLeft, back, inRight, rfl⟩ := member
    rw [List.append_assoc] at split
    obtain ⟨clean₁, -⟩ := start.complete cursor fits front inLeft (back ++ rest) split
      (follows back inRight rest holds)
    rw [same fits clean₁]
    exact ⟨clean, ended⟩

theorem attempt_andThen {first : Parse α} {next : Option α → Parse β}
    (start : Accepts levels left (fun _ => True) first) (fails : (next none).LineBound)
    (behind : ∀ value, Accepts levels right after (next (some value))) :
    Accepts levels (left * right) after (first.attempt >>= next) :=
  start.attempt_bind fails behind fun _ _ _ _ => trivial

theorem attempt_finish {first : Parse α} {next : Option α → Parse β}
    (start : Accepts levels words follow first) (fails : (next none).LineBound)
    (behind : ∀ value, Accepts levels 1 follow (next (some value))) :
    Accepts levels words follow (first.attempt >>= next) := by
  refine (start.attempt_bind fails behind ?_).of_eq (mul_one words)
  rintro word rfl rest holds
  exact holds

/-! ## Tokens -/

private theorem takeIf {accepts : Token → Bool} {one_ : Token → Prop} (expected : List Kind)
    (bound : LineBound fun cursor : Cursor =>
      cursor.takeIf (cursor.peek?.any accepts) expected)
    (same : ∀ token : Token, token.WellFormed → (accepts token = true ↔ one_ token)) :
    Accepts levels (one one_) follow
      fun cursor : Cursor => cursor.takeIf (cursor.peek?.any accepts) expected := by
  refine ⟨bound, ?_, ?_⟩
  · intro cursor fits clean
    dsimp only [Cursor.takeIf] at clean ⊢
    split at clean
    · next tested =>
        obtain ⟨token, rest, next, accepted⟩ := Cursor.next_of_peek tested
        have holds := (same token (fits.wellFormed token (by simp [next]))).1 accepted
        rw [if_pos tested, Cursor.advance_eq next]
        exact ⟨⟨token, rfl⟩, [token], ⟨token, rfl, holds⟩, next⟩
    · simp [Cursor.record] at clean
  · rintro cursor fits word ⟨token, rfl, holds⟩ rest next -
    have accepted := (same token (fits.wellFormed token (by simp [next]))).2 holds
    have tested : cursor.peek?.any accepts = true := by simp [Cursor.peek?, next, accepted]
    dsimp only [Cursor.takeIf]
    rw [if_pos tested, Cursor.advance_eq next]
    exact ⟨rfl, rfl⟩

theorem token {kind : Kind} [plain : kind.IsPlain] :
    Accepts levels (Words.kind kind) follow (Parse.token kind) :=
  takeIf [kind] (token_lineBound plain.newline) fun _ proper => proper.hasKind_plain

theorem python : Accepts levels Words.python follow (Parse.token .python) :=
  takeIf [.python] (token_lineBound (by simp)) fun _ proper => proper.hasKind_python_iff

theorem name : Accepts levels Words.name follow Parse.name :=
  takeIf [.identifier] name_lineBound fun _ proper => proper.isName_iff

theorem anyToken {kinds : List Kind} (plain : ∀ kind ∈ kinds, kind.IsPlain) :
    Accepts levels (one (·.kind ∈ kinds)) follow (Parse.anyToken kinds) := by
  have bound := anyToken_lineBound fun kind member => (plain kind member).newline
  have equal : Parse.anyToken kinds = fun cursor : Cursor =>
      cursor.takeIf (cursor.peek?.any fun token => kinds.any token.hasKind) kinds := by
    funext cursor
    simp only [Parse.anyToken, Cursor.requireAny, any_test]
  rw [equal] at bound ⊢
  refine takeIf kinds bound fun token proper => ?_
  rw [List.any_eq_true]
  constructor
  · rintro ⟨kind, member, has⟩
    have := plain kind member
    exact proper.hasKind_plain.1 has ▸ member
  · exact fun member => ⟨token.kind, member, token.hasKind_self⟩

theorem anyToken_kind {kinds : List Kind} (plain : ∀ kind ∈ kinds, kind.IsPlain)
    {cursor : Cursor} (proper : ∀ token ∈ cursor.upcoming, token.WellFormed) {token : Token}
    (found : (Parse.anyToken kinds cursor).1 = some token) : token.kind ∈ kinds := by
  simp only [Parse.anyToken, Cursor.requireAny, Cursor.takeIf, any_test] at found
  split at found
  · next tested =>
      obtain ⟨next, rest, upcoming, accepted⟩ := Cursor.next_of_peek tested
      rw [Cursor.advance_eq upcoming] at found
      cases found
      obtain ⟨kind, member, has⟩ := List.any_eq_true.1 accepted
      have wellFormed := proper token (by simp [upcoming])
      have := plain kind member
      exact wellFormed.hasKind_plain.1 has ▸ member
  · cases found

theorem anyToken_bind {kinds : List Kind} {next : Token → Parse β}
    (plain : ∀ kind ∈ kinds, kind.IsPlain) (bound : ∀ token, (next token).LineBound)
    (behind : ∀ token : Token, token.kind ∈ kinds → Accepts levels right after (next token)) :
    Accepts levels (one (·.kind ∈ kinds) * right) after (Parse.anyToken kinds >>= next) := by
  have start : Accepts levels (one (·.kind ∈ kinds)) (fun _ => True) (Parse.anyToken kinds) :=
    anyToken plain
  exact start.bind_of (fun cursor fits token found => anyToken_kind plain fits.wellFormed found)
    bound behind fun _ _ _ _ => trivial

theorem tokenIf_bind {kind : Kind} [plain : kind.IsPlain] {next : Option Token → Parse β}
    {yes no : Language Token} (there : ∀ token, Accepts levels yes after (next (some token)))
    (absent : Accepts levels no after (next none))
    (ends : [] ∈ no → ∀ rest, after rest → Avoids [kind] rest) :
    Accepts levels (Words.kind kind * yes + without kind no) after (Parse.tokenIf kind >>= next) := by
  have shifted {cursor : Cursor} (fits : cursor.Fits levels) {token : Token} {rest : List Token}
      (upcoming : cursor.upcoming = token :: rest) : (cursor.shift token rest).Fits levels :=
    ⟨fits.levels_eq, fun other member => fits.wellFormed other (by
      rw [upcoming]
      exact List.mem_cons_of_mem token member)⟩
  refine ⟨?_, ?_, ?_⟩
  · refine .bind (tokenIf_lineBound plain.newline) fun result => ?_
    cases result with
    | none => exact absent.bound
    | some token => exact (there token).bound
  · intro cursor fits clean
    by_cases tested : cursor.test kind = true
    · obtain ⟨token, rest, upcoming, has⟩ := Cursor.next_of_peek tested
      have same := (fits.wellFormed token (by simp [upcoming])).hasKind_plain.1 has
      rw [tokenIf_some upcoming tested] at clean ⊢
      obtain ⟨found, word, member, split⟩ :=
        (there token).sound _ (shifted fits upcoming) clean
      refine ⟨found, token :: word, .inl ⟨[token], ⟨token, rfl, same⟩, word, member, rfl⟩, ?_⟩
      rw [upcoming, List.cons_append, ← split]
      rfl
    · rw [tokenIf_none tested] at clean ⊢
      obtain ⟨found, word, member, split⟩ := absent.sound cursor fits clean
      refine ⟨found, word, .inr ⟨member, ?_⟩, split⟩
      intro token first same
      refine tested (fits.test_iff.2 ⟨token, ?_, by simpa using same⟩)
      rw [split, List.head?_append, Option.mem_def.1 first]
      rfl
  · rintro cursor fits word (⟨_, ⟨token, rfl, same⟩, word, member, rfl⟩ | ⟨member, avoids⟩)
      rest split holds
    · have tested := fits.test_iff.2 ⟨token, by simp [split], same⟩
      rw [tokenIf_some split tested]
      exact (there token).complete _ (shifted fits split) word member rest rfl holds
    · have tested : ¬cursor.test kind = true := by
        rw [fits.test_iff, split]
        rintro ⟨token, first, same⟩
        cases word with
        | nil => exact ends member rest holds token first (by simp [same])
        | cons other word => exact avoids token first (by simp [same])
      rw [tokenIf_none tested]
      exact absent.complete cursor fits word member rest split holds

end Accepts

end Parse

end NovelScript
