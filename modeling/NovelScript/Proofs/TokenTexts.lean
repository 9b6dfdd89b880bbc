import NovelScript.Proofs.LexicalErrors

/-!
# Texts of tokens

A name is spelled as a word, a symbol as its mark, and a blank token holds blanks only.  So where
names and marks follow each other, with nothing between them that the grammar sees, the script says
just what they say, but for blanks.
-/

namespace NovelScript

open Text

/-! ## Words -/

namespace Text

def IsWord : List Char → Prop
  | [] => False
  | first :: rest =>
      Lexeme.startsWord first = true ∧ ∀ character ∈ rest, isNameContinue character = true

/-- What a text says without its blanks. -/
def unblanked (text : List Char) : List Char := text.filter fun character => !isBlank character

@[simp] theorem unblanked_append (first second : List Char) :
    unblanked (first ++ second) = unblanked first ++ unblanked second :=
  List.filter_append first second

theorem unblanked_of_blank {text : List Char}
    (blank : ∀ character ∈ text, isBlank character = true) : unblanked text = [] := by
  refine List.filter_eq_nil_iff.2 fun character member => ?_
  simp [blank character member]

theorem unblanked_of_solid {text : List Char}
    (solid : ∀ character ∈ text, isBlank character = false) : unblanked text = text := by
  refine List.filter_eq_self.2 fun character member => ?_
  simp [solid character member]

theorem not_word_of_isBlank {character : Char} (blank : isBlank character = true) :
    Lexeme.startsWord character = false ∧ isNameContinue character = false := by
  simp only [isBlank, Bool.or_eq_true, decide_eq_true_eq] at blank
  rcases blank with (rfl | rfl) | rfl <;> decide

theorem IsWord.unblanked_eq {word : List Char} (isWord : IsWord word) : unblanked word = word := by
  refine unblanked_of_solid fun character member => ?_
  cases word with
  | nil => simp at member
  | cons first rest =>
      by_contra blank
      obtain ⟨starts, continues⟩ := not_word_of_isBlank (eq_true_of_ne_false blank)
      rcases List.mem_cons.1 member with rfl | later
      · exact absurd isWord.1 (by simp [starts])
      · exact absurd (isWord.2 character later) (by simp [continues])

end Text

/-! ## Lexemes -/

namespace Lexeme

theorem symbolKind?_cases {spelling : List Char} {kind : Kind}
    (found : symbolKind? spelling = some kind) :
    (∃ operator, kind = .operator operator) ∨
      ∃ mark : Punctuation, kind = .punctuation mark ∧ spelling = mark.text.toList := by
  unfold symbolKind? at found
  split at found
  · cases found
    exact .inl ⟨_, rfl⟩
  · obtain ⟨mark, among, rfl⟩ := Option.map_eq_some_iff.1 found
    have same := List.find?_some among
    exact .inr ⟨mark, rfl, (beq_iff_eq.1 same).symm⟩

theorem symbol?_eq {first : Char} {rest : List Char} {kind : Kind} {extra : Nat}
    (found : symbol? first rest = some (kind, extra)) :
    symbolKind? (first :: rest.take extra) = some kind := by
  have single (found : (symbolKind? [first]).map (·, 0) = some (kind, extra)) :
      symbolKind? (first :: rest.take extra) = some kind := by
    obtain ⟨other, same, equal⟩ := Option.map_eq_some_iff.1 found
    cases equal
    exact same
  unfold symbol? at found
  split at found
  · split at found
    · next double =>
        cases found
        exact double
    · exact single found
  · exact single found

/-- A lexeme whose text is what its kind says: a name is a word, a mark is itself, and a blank holds
blanks only. -/
structure Spelled (lexeme : Lexeme) : Prop where
  name : lexeme.kind = .identifier ∨ (∃ word, lexeme.kind = .keyword word) →
    IsWord lexeme.text ∧ wordKind lexeme.text = lexeme.kind
  mark : ∀ mark : Punctuation, lexeme.kind = .punctuation mark → lexeme.text = mark.text.toList
  blank : lexeme.kind = .whitespace → ∀ character ∈ lexeme.text, isBlank character = true

theorem Spelled.of_other {lexeme : Lexeme}
    (other : lexeme.kind = .newline ∨ lexeme.kind = .comment ∨ lexeme.kind = .invalid ∨
      lexeme.kind = .python ∨ (∃ sort, lexeme.kind = .literal sort) ∨
      ∃ operator, lexeme.kind = .operator operator) : lexeme.Spelled := by
  rcases other with kind | kind | kind | kind | ⟨_, kind⟩ | ⟨_, kind⟩ <;>
    exact ⟨by simp [kind], by simp [kind], by simp [kind]⟩

theorem Spelled.of_blank {lexeme : Lexeme} (kind : lexeme.kind = .whitespace)
    (blank : ∀ character ∈ lexeme.text, isBlank character = true) : lexeme.Spelled :=
  ⟨by simp [kind], by simp [kind], fun _ => blank⟩

private theorem take_takeWhile (holds : Char → Bool) (text : List Char) :
    text.take (text.takeWhile holds).length = text.takeWhile holds :=
  (List.prefix_iff_eq_take.1 (List.takeWhile_prefix holds)).symm

private theorem word_spelled {first : Char} {rest : List Char} (starts : startsWord first = true) :
    Spelled ⟨wordKind (first :: rest.takeWhile isNameContinue), none,
      first :: rest.takeWhile isNameContinue⟩ := by
  have legible := wordKind_isLegible (first :: rest.takeWhile isNameContinue)
  refine ⟨fun _ => ⟨⟨starts, fun character => ?_⟩, rfl⟩, fun mark kind => ?_, fun blank => ?_⟩
  · exact List.mem_takeWhile_imp
  · unfold wordKind at kind
    dsimp only at kind
    split at kind
    · cases kind
    · split at kind <;> cases kind
  · rw [show wordKind _ = _ from blank] at legible
    cases legible

theorem core_spelled (first : Char) (rest : List Char) : (core first rest).1.Spelled := by
  unfold core
  generalize same : classify first rest = class_
  obtain ⟨kind, wrapped, extra⟩ := class_
  show Spelled ⟨kind, wrapped, first :: rest.take extra⟩
  unfold classify at same
  split at same
  · next blank =>
      cases same
      refine .of_blank rfl (List.forall_mem_cons.2 ⟨blank, fun character member => ?_⟩)
      rw [take_takeWhile] at member
      exact List.mem_takeWhile_imp member
  split at same
  · cases same
    exact .of_other (by simp)
  split at same
  · split at same <;> cases same <;> exact .of_other (by simp)
  split at same
  · cases same
    exact .of_other (by simp)
  split at same
  · next starts =>
      cases same
      rw [take_takeWhile]
      exact word_spelled starts
  split at same
  · cases same
    exact .of_other (.inr (.inr (.inr (.inr (.inl (number_isLiteral rest))))))
  dsimp only at same
  split at same
  · split at same <;> cases same <;> exact .of_other (by simp)
  · split at same
    · next found =>
        cases same
        rcases symbolKind?_cases (symbol?_eq found) with ⟨operator, rfl⟩ | ⟨mark, rfl, spelling⟩
        · exact .of_other (by simp)
        · refine ⟨by simp, fun other kind => ?_, by simp⟩
          cases kind
          exact spelling
    · cases same
      exact .of_other (by simp)

theorem python_spelled {mode : PythonMode} {text : List Char} {lexeme : Lexeme}
    (member : lexeme ∈ (python mode text).1) : lexeme.Spelled := by
  rcases python_kinds member with ⟨kind, blank⟩ | kind | ⟨kind, -⟩
  · exact .of_blank kind blank
  · exact .of_other (by simp [kind])
  · exact .of_other (by simp [kind])

theorem fromContext_spelled {context : LineContext} {text : List Char} {lexeme : Lexeme}
    (member : lexeme ∈ fromContext context text) : lexeme.Spelled := by
  fun_induction fromContext context text with
  | case1 => simp at member
  | case2 context first rest head behind following step ih =>
      rcases List.mem_cons.1 member with rfl | later
      · exact core_spelled first rest
      · exact ih later
  | case3 context first rest head behind following mode step ih =>
      rcases List.mem_cons.1 member with rfl | later
      · exact core_spelled first rest
      · rcases List.mem_append.1 later with embedded | later
        · exact python_spelled embedded
        · exact ih later

/-- Nothing follows a comment but a line break, or a return that breaks no line. -/
theorem kind_behind_comment {context : LineContext} {text : List Char}
    {before after : List Lexeme} {comment next : Lexeme}
    (split : fromContext context text = before ++ comment :: next :: after)
    (kind : comment.kind = .comment) : next.kind = .newline ∨ next.kind = .invalid := by
  fun_induction fromContext context text generalizing before with
  | case1 => simp at split
  | case2 context first rest head behind following step =>
      rename_i ih
      cases before with
      | nil =>
          obtain ⟨rfl, behind_⟩ := List.cons.inj split
          have head_ : next ∈ (fromContext following behind).head? := by rw [behind_]; rfl
          obtain ⟨character, text, equal, rfl⟩ := fromContext_head head_
          have ends := rest_of_comment kind character
          exact kind_of_break (ends (by rw [show (core first rest).2 = _ from equal]; rfl)) text
      | cons _ before => exact ih (List.cons.inj split).2
  | case3 context first rest head behind following mode step =>
      rename_i ih
      cases before with
      | nil =>
          obtain ⟨rfl, -⟩ := List.cons.inj split
          exact absurd kind (LineContext.next_of_mode step).1.2.2
      | cons _ before =>
          obtain ⟨-, split⟩ := List.cons.inj split
          rcases List.append_eq_append_iff.1 split with
            ⟨middle, rfl, later⟩ | ⟨middle, embedded, same⟩
          · exact ih later
          · cases middle with
            | nil =>
                have split_ : fromContext following _ = [] ++ comment :: next :: after := same.symm
                exact ih split_
            | cons _ middle =>
                obtain ⟨rfl, -⟩ := List.cons.inj same
                have inside : comment ∈ (python mode behind).1 := by simp [embedded]
                rcases python_kinds inside with ⟨blank, -⟩ | python | ⟨invalid, -⟩ <;> simp_all

/-- Between lexemes that break no line, and in front of the last of them, there is no comment. -/
theorem ne_comment_of_plain {context : LineContext} {text : List Char}
    {outer inner later : List Lexeme} (split : fromContext context text = outer ++ (inner ++ later))
    (plain : ∀ lexeme ∈ inner, lexeme.kind ≠ .newline ∧ lexeme.kind ≠ .invalid)
    (final : ∀ lexeme ∈ inner.getLast?, lexeme.kind ≠ .comment) :
    ∀ lexeme ∈ inner, lexeme.kind ≠ .comment := by
  intro comment member kind
  obtain ⟨before, after, rfl⟩ := List.append_of_mem member
  cases after with
  | nil => exact final comment (by simp) kind
  | cons next after =>
      obtain ⟨newline, invalid⟩ := plain next (by simp)
      have split_ : fromContext context text =
          (outer ++ before) ++ comment :: next :: (after ++ later) := by simpa using split
      exact (kind_behind_comment split_ kind).elim newline invalid

/-- What the grammar does not see between such lexemes holds blanks only. -/
theorem unblanked_of_plain {context : LineContext} {text : List Char}
    {outer inner later : List Lexeme} (split : fromContext context text = outer ++ (inner ++ later))
    (plain : ∀ lexeme ∈ inner, lexeme.kind ≠ .newline ∧ lexeme.kind ≠ .invalid)
    (final : ∀ lexeme ∈ inner.getLast?, lexeme.kind ≠ .comment) :
    ∀ lexeme ∈ inner, lexeme.kind.isTrivia = true → unblanked lexeme.text = [] := by
  intro lexeme member trivia
  have uncommented := ne_comment_of_plain split plain final lexeme member
  have blank : lexeme.kind = .whitespace := by
    cases kind : lexeme.kind <;> simp_all [Kind.isTrivia]
  have among : lexeme ∈ fromContext context text := by simp [split, member]
  exact unblanked_of_blank ((fromContext_spelled among).blank blank)

end Lexeme

/-! ## Tokens -/

/-- The text that a script has under a span, between two boundaries in order. -/
def Span.Spells (source : List Char) (span : Span) (text : List Char) : Prop :=
  Text.slice? source span.start.offset span.stop.offset = some text

theorem Span.spells_after (before text after : List Char) :
    (Span.mk (Position.origin.after before) ((Position.origin.after before).after text)).Spells
      (before ++ (text ++ after)) text := by
  simp [Spells, Position.origin]

namespace Token

variable {source : List Char} {token : Token}

theorem spells_of_mem (member : token ∈ ofText source) :
    token.span.Spells source (token.value source).toList := by
  obtain ⟨first, lexeme, second, -, source_, rfl⟩ := exists_split_of_mem_ofText member
  have text := Span.textIn_after (Lexeme.joined first) lexeme.text (Lexeme.joined second)
  have spells := Span.spells_after (Lexeme.joined first) lexeme.text (Lexeme.joined second)
  rw [← source_] at text spells
  rw [value, text, String.toList_ofList]
  exact spells

/-- What a token of a script says is spelled as its kind has it. -/
theorem spelled_of_mem (member : token ∈ ofText source) :
    Lexeme.Spelled ⟨token.kind, token.wrapped, (token.value source).toList⟩ := by
  obtain ⟨first, lexeme, second, lexemes, source_, rfl⟩ := exists_split_of_mem_ofText member
  have text := Span.textIn_after (Lexeme.joined first) lexeme.text (Lexeme.joined second)
  rw [← source_] at text
  rw [value, text, String.toList_ofList]
  exact Lexeme.fromContext_spelled (lexemes ▸ List.mem_append_right first List.mem_cons_self)

/-! ## Tokens next to each other -/

theorem place_head? {position : Position} {lexemes : List Lexeme}
    (first : token ∈ (place position lexemes).head?) : token.start = position := by
  cases lexemes with
  | nil => cases first
  | cons lexeme rest =>
      cases first
      rfl

theorem place_getLast? {position : Position} {lexemes : List Lexeme}
    (last : token ∈ (place position lexemes).getLast?) :
    token.stop = position.after (Lexeme.joined lexemes) := by
  induction lexemes generalizing position with
  | nil => cases last
  | cons lexeme rest ih =>
      cases rest with
      | nil =>
          rw [place, place, List.getLast?_singleton] at last
          cases last
          simp [stop]
      | cons second rest =>
          rw [place, place, List.getLast?_cons_cons] at last
          rw [ih last, Lexeme.joined_cons lexeme, Position.after_append]

/-- Without its blanks a text says what its tokens say, if those that the grammar does not see are
blanks. -/
theorem unblanked_joined {before after : List Char} {lexemes : List Lexeme}
    (text : source = before ++ (Lexeme.joined lexemes ++ after))
    (blank : ∀ lexeme ∈ lexemes, lexeme.kind.isTrivia = true → unblanked lexeme.text = []) :
    unblanked (Lexeme.joined lexemes) =
      ((place (Position.origin.after before) lexemes).filter fun token =>
        !token.kind.isTrivia).flatMap fun token => unblanked (token.value source).toList := by
  induction lexemes generalizing before with
  | nil => rfl
  | cons lexeme rest ih =>
      have text_ : source =
          (before ++ lexeme.text) ++ (Lexeme.joined rest ++ after) := by simpa using text
      have later := ih text_ fun other member => blank other (List.mem_cons_of_mem _ member)
      have here := Span.textIn_after before lexeme.text (Lexeme.joined rest ++ after)
      rw [Lexeme.joined_cons, List.append_assoc] at text
      rw [← text] at here
      rw [Position.after_append] at later
      rw [Lexeme.joined_cons, unblanked_append, later, place]
      cases trivia : lexeme.kind.isTrivia with
      | true => simp [trivia, blank lexeme List.mem_cons_self trivia]
      | false => simp [trivia, value, here]

theorem exists_run_of_filter {items before run after : List α} {test : α → Bool}
    (split : items.filter test = before ++ (run ++ after)) (nonempty : run ≠ []) :
    ∃ front stretch behind, items = front ++ (stretch ++ behind) ∧ stretch.filter test = run ∧
      stretch.head? = run.head? ∧ stretch.getLast? = run.getLast? := by
  obtain ⟨first, rest, rfl⟩ := List.exists_cons_of_ne_nil nonempty
  obtain ⟨front, behind, rfl, -, on, others⟩ := exists_split_of_filter split
  rcases List.eq_nil_or_concat rest with rfl | ⟨inner, last, rfl⟩
  · exact ⟨front, [first], behind, by simp, by simp [on], rfl, rfl⟩
  · have others_ : behind.filter test = inner ++ last :: after := by simpa using others
    obtain ⟨middle, later, rfl, inner_, final, -⟩ := exists_split_of_filter others_
    refine ⟨front, first :: (middle ++ [last]), later, by simp, ?_, rfl, ?_⟩
    · simp [on, inner_, final]
    · rw [List.concat_eq_append, ← List.cons_append, ← List.cons_append, List.getLast?_concat,
        List.getLast?_concat]

/-- Visible tokens next to each other are those of lexemes next to each other, from the first of
them to the last. -/
theorem exists_lexemes_of_run {before run after : List Token}
    (split : visible source = before ++ (run ++ after)) (nonempty : run ≠ []) :
    ∃ outer inner later, Lexeme.ofText source = outer ++ (inner ++ later) ∧
      ((place (Position.origin.after (Lexeme.joined outer)) inner).filter fun token =>
        !token.kind.isTrivia) = run ∧
      (place (Position.origin.after (Lexeme.joined outer)) inner).head? = run.head? ∧
      (place (Position.origin.after (Lexeme.joined outer)) inner).getLast? = run.getLast? := by
  obtain ⟨front, stretch, behind, tokens, shown, head, final⟩ := exists_run_of_filter split nonempty
  obtain ⟨outer, rest, lexemes, rfl, equal⟩ := place_split tokens
  obtain ⟨inner, later, rfl, rfl, rfl⟩ := place_split equal.symm
  exact ⟨outer, inner, later, lexemes, shown, head, final⟩

theorem forall_mem_place (holds : Kind → Prop) (position : Position) {lexemes : List Lexeme} :
    (∀ token ∈ place position lexemes, holds token.kind) ↔
      ∀ lexeme ∈ lexemes, holds lexeme.kind := by
  have kinds := place_kinds position lexemes
  rw [← List.forall_mem_map (P := holds), kinds, List.forall_mem_map]

/-- Names and marks with nothing between them that the grammar sees: without its blanks the script
says just what they say. -/
theorem visible_run {before run after : List Token} {first last : Token}
    (split : visible source = before ++ (run ++ after)) (head : run.head? = some first)
    (final : run.getLast? = some last)
    (plain : ∀ token ∈ run, token.kind ≠ .newline ∧ token.kind ≠ .invalid) :
    ∃ text, last.stop = first.start.after text ∧
      (Span.mk first.start last.stop).Spells source text ∧
      unblanked text = run.flatMap fun token => unblanked (token.value source).toList := by
  have nonempty : run ≠ [] := by
    rintro rfl
    cases head
  obtain ⟨outer, inner, later, lexemes, shown, head_, final_⟩ :=
    exists_lexemes_of_run split nonempty
  have start := place_head? (head_.trans head)
  have stop := place_getLast? (final_.trans final)
  have text : source =
      Lexeme.joined outer ++ (Lexeme.joined inner ++ Lexeme.joined later) := by
    rw [← Lexeme.joined_append, ← Lexeme.joined_append, ← lexemes]
    exact (Lexeme.joined_ofText source).symm
  have plain_ : ∀ lexeme ∈ inner, lexeme.kind ≠ .newline ∧ lexeme.kind ≠ .invalid := by
    refine (forall_mem_place (fun kind => kind ≠ .newline ∧ kind ≠ .invalid)
      (Position.origin.after (Lexeme.joined outer))).1 fun token among => ?_
    cases trivia : token.kind.isTrivia with
    | true => constructor <;> rintro kind <;> simp [kind, Kind.isTrivia] at trivia
    | false => exact plain token (shown ▸ List.mem_filter.2 ⟨among, by simp [trivia]⟩)
  have visible_ : last.kind.isTrivia = false := by
    have among : last ∈ run := List.mem_of_getLast? final
    rw [← shown] at among
    simpa using (List.mem_filter.1 among).2
  have uncommented (lexeme : Lexeme) (member : lexeme ∈ inner.getLast?) :
      lexeme.kind ≠ .comment := by
    have same := congrArg List.getLast?
      (place_kinds (Position.origin.after (Lexeme.joined outer)) inner)
    rw [List.getLast?_map, List.getLast?_map, final_, final, Option.mem_def.1 member] at same
    rintro kind
    simp [Option.some.inj same, kind, Kind.isTrivia] at visible_
  refine ⟨Lexeme.joined inner, by rw [start, stop], ?_, ?_⟩
  · rw [start, stop]
    exact text ▸ Span.spells_after _ _ _
  · rw [unblanked_joined text (Lexeme.unblanked_of_plain lexemes plain_ uncommented), shown]

end Token

end NovelScript
