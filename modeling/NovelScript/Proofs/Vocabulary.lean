import NovelScript.Token.Basic

/-!
# Kinds of the tokens of a script

Only invalid tokens wrap another kind, and only a string or a span of python.  Apart from these two
kinds, what a token can be taken for is its own kind.
-/

namespace NovelScript

theorem Text.drop_length_takeWhile (holds : Char → Bool) (text : List Char) :
    text.drop (text.takeWhile holds).length = text.dropWhile holds := by
  induction text with
  | nil => rfl
  | cons character rest ih => by_cases kept : holds character = true <;> simp [kept, ih]

theorem exists_split_of_filter {items before after : List α} {item : α} {test : α → Bool}
    (split : items.filter test = before ++ item :: after) :
    ∃ front behind, items = front ++ item :: behind ∧ front.filter test = before ∧
      test item = true ∧ behind.filter test = after := by
  obtain ⟨front, rest, rfl, first, equal⟩ := List.filter_eq_append_iff.1 split
  obtain ⟨between, behind, rfl, none_, on, last⟩ := List.filter_eq_cons_iff.1 equal
  refine ⟨front ++ between, behind, by simp, ?_, on, last⟩
  rw [List.filter_append, first, List.filter_eq_nil_iff.2 none_, List.append_nil]

/-- Kinds of words, literals, symbols and invalid input: all but layout and python. -/
def Kind.isSpelled : Kind → Bool
  | .whitespace | .newline | .comment | .python => false
  | _ => true

/-- Kinds of words, literals and symbols. -/
def Kind.isLegible : Kind → Bool
  | .invalid => false
  | kind => kind.isSpelled

theorem Kind.isSpelled_of_isLegible {kind : Kind} (legible : kind.isLegible = true) :
    kind.isSpelled = true := by
  cases kind with
  | invalid => rfl
  | _ => exact legible

namespace Lexeme

/-! ## Core lexemes -/

theorem number_isLiteral (rest : List Char) : ∃ sort, (number rest).1 = .literal sort := by
  unfold number
  dsimp only
  split
  · split <;> exact ⟨_, rfl⟩
  · exact ⟨_, rfl⟩

theorem number_isLegible (rest : List Char) : (number rest).1.isLegible = true := by
  obtain ⟨sort, literal⟩ := number_isLiteral rest
  rw [literal]
  rfl

theorem wordKind_isLegible (word : List Char) : (wordKind word).isLegible = true := by
  unfold wordKind
  dsimp only
  split
  · rfl
  · split <;> rfl

private theorem symbolKind?_isLegible {spelling : List Char} {kind : Kind}
    (found : symbolKind? spelling = some kind) : kind.isLegible = true := by
  unfold symbolKind? at found
  split at found
  · cases found
    rfl
  · obtain ⟨mark, -, rfl⟩ := Option.map_eq_some_iff.1 found
    rfl

theorem symbol?_isLegible {first : Char} {rest : List Char} {kind : Kind} {extra : Nat}
    (found : symbol? first rest = some (kind, extra)) : kind.isLegible = true := by
  have single {other : Option Kind} (from_ : (other.map (·, 0)) = some (kind, extra)) :
      other = some kind := by
    cases other with
    | none => cases from_
    | some found => cases from_; rfl
  unfold symbol? at found
  split at found
  · split at found
    · next double equal =>
        cases found
        exact symbolKind?_isLegible equal
    · exact symbolKind?_isLegible (single found)
  · exact symbolKind?_isLegible (single found)

/-- Layout is told by its first character. -/
theorem classify_layout (first : Char) (rest : List Char) :
    (Text.isBlank first = true ∧
        classify first rest = (.whitespace, none, (rest.takeWhile Text.isBlank).length)) ∨
      (first = '\n' ∧ classify first rest = (.newline, none, 0)) ∨
      (first = '\r' ∧ rest.head? = some '\n' ∧ classify first rest = (.newline, none, 1)) ∨
      (first = '#' ∧ classify first rest = (.comment, none,
        (rest.takeWhile fun character => character != '\r' && character != '\n').length)) ∨
      (classify first rest).1.isSpelled = true := by
  unfold classify
  split
  · next blank => exact .inl ⟨blank, rfl⟩
  split
  · next newline => exact .inr (.inl ⟨newline, rfl⟩)
  split
  · next return_ =>
      split
      · next follows => exact .inr (.inr (.inl ⟨return_, follows, rfl⟩))
      · exact .inr (.inr (.inr (.inr rfl)))
  split
  · next hash => exact .inr (.inr (.inr (.inl ⟨hash, rfl⟩)))
  refine .inr (.inr (.inr (.inr ?_)))
  split
  · exact Kind.isSpelled_of_isLegible (wordKind_isLegible _)
  split
  · exact Kind.isSpelled_of_isLegible (number_isLegible rest)
  dsimp only
  split
  · split <;> rfl
  · split
    · next kind extra found => exact Kind.isSpelled_of_isLegible (symbol?_isLegible found)
    · rfl

theorem isBlank_of_whitespace {first : Char} {rest : List Char}
    (kind : (core first rest).1.kind = .whitespace) : Text.isBlank first = true := by
  simp only [core] at kind
  rcases classify_layout first rest with
    ⟨blank, -⟩ | ⟨-, equal⟩ | ⟨-, -, equal⟩ | ⟨-, equal⟩ | spelled
  · exact blank
  · simp [equal] at kind
  · simp [equal] at kind
  · simp [equal] at kind
  · simp [kind, Kind.isSpelled] at spelled

theorem text_of_newline {first : Char} {rest : List Char}
    (kind : (core first rest).1.kind = .newline) :
    (core first rest).1.text = ['\n'] ∨ (core first rest).1.text = ['\r', '\n'] := by
  simp only [core] at kind ⊢
  rcases classify_layout first rest with
    ⟨-, equal⟩ | ⟨newline, equal⟩ | ⟨return_, follows, equal⟩ | ⟨-, equal⟩ | spelled
  · simp [equal] at kind
  · exact .inl (by rw [equal, newline]; rfl)
  · cases rest with
    | nil => simp at follows
    | cons second rest => exact .inr (by simp_all)
  · simp [equal] at kind
  · simp [kind, Kind.isSpelled] at spelled

/-- A comment runs to a line break or to the end of the script. -/
theorem rest_of_comment {first : Char} {rest : List Char}
    (kind : (core first rest).1.kind = .comment) :
    ∀ character ∈ (core first rest).2.head?, character = '\r' ∨ character = '\n' := by
  simp only [core] at kind ⊢
  rcases classify_layout first rest with
    ⟨-, equal⟩ | ⟨-, equal⟩ | ⟨-, -, equal⟩ | ⟨-, equal⟩ | spelled
  · simp [equal] at kind
  · simp [equal] at kind
  · simp [equal] at kind
  · intro character next
    rw [equal, Text.drop_length_takeWhile] at next
    have stops := List.head?_dropWhile_not
      (fun character => character != '\r' && character != '\n') rest
    rw [Option.mem_def.1 next] at stops
    simpa [Classical.or_iff_not_imp_left] using stops
  · simp [kind, Kind.isSpelled] at spelled

/-- At a line break there is a newline or a character that stands for nothing. -/
theorem kind_of_break {first : Char} (break_ : first = '\r' ∨ first = '\n') (rest : List Char) :
    (core first rest).1.kind = .newline ∨ (core first rest).1.kind = .invalid := by
  rcases break_ with rfl | rfl
  · simp only [core, classify, Text.isBlank]
    split
    · simp at *
    · simp only [Char.reduceEq, if_false, if_true]
      split <;> simp
  · simp [core, classify, Text.isBlank]

/-- What a core lexeme wraps, if anything, is a string that was not closed; and the core never
finds python. -/
theorem classify_kinds (first : Char) (rest : List Char) :
    (classify first rest).1 ≠ .python ∧
      ((classify first rest).2.1 = none ∨
        (classify first rest).1 = .invalid ∧
          (classify first rest).2.1 = some (.literal .string)) := by
  have ne_python {kind : Kind} (legible : kind.isLegible = true) : kind ≠ .python := by
    rintro rfl
    cases legible
  unfold classify
  split
  · exact ⟨by simp, .inl rfl⟩
  split
  · exact ⟨by simp, .inl rfl⟩
  split
  · split
    · exact ⟨by simp, .inl rfl⟩
    · exact ⟨by simp, .inl rfl⟩
  split
  · exact ⟨by simp, .inl rfl⟩
  split
  · exact ⟨ne_python (wordKind_isLegible _), .inl rfl⟩
  split
  · exact ⟨ne_python (number_isLegible rest), .inl rfl⟩
  dsimp only
  split
  · split
    · exact ⟨by simp, .inl rfl⟩
    · exact ⟨by simp, .inr ⟨rfl, rfl⟩⟩
  · split
    · next kind extra found => exact ⟨ne_python (symbol?_isLegible found), .inl rfl⟩
    · exact ⟨by simp, .inl rfl⟩

end Lexeme

/-! ## Tokens -/

namespace Token

/-- Only an unclosed string or an unclosed span of python wraps a kind, inside an invalid token. -/
def WellFormed (token : Token) : Prop :=
  token.wrapped = none ∨ token.kind = .invalid ∧
    (token.wrapped = some (.literal .string) ∨ token.wrapped = some .python)

namespace WellFormed

variable {token : Token}

theorem hasKind_iff (wellFormed : token.WellFormed) {kind : Kind}
    (string : kind ≠ .literal .string) (python : kind ≠ .python) :
    token.hasKind kind = true ↔ token.kind = kind := by
  simp only [hasKind, Bool.or_eq_true, beq_iff_eq]
  rcases wellFormed with none | ⟨-, text | code⟩
  · simp [none]
  · simp [text, string.symm]
  · simp [code, python.symm]

theorem hasKind_string_iff (wellFormed : token.WellFormed) :
    token.hasKind (.literal .string) = true ↔ token.kind = .literal .string ∨
      token.kind = .invalid ∧ token.wrapped = some (.literal .string) := by
  simp only [hasKind, Bool.or_eq_true, beq_iff_eq]
  rcases wellFormed with none | ⟨invalid, -⟩
  · simp [none]
  · simp [invalid]

theorem hasKind_python_iff (wellFormed : token.WellFormed) :
    token.hasKind .python = true ↔ token.kind = .python ∨
      token.kind = .invalid ∧ token.wrapped = some .python := by
  simp only [hasKind, Bool.or_eq_true, beq_iff_eq]
  rcases wellFormed with none | ⟨invalid, -⟩
  · simp [none]
  · simp [invalid]

theorem hasKind_of_newline (wellFormed : token.WellFormed) (newline : token.kind = .newline)
    (kind : Kind) : token.hasKind kind = true ↔ kind = .newline := by
  rcases wellFormed with none | ⟨invalid, -⟩
  · simp only [hasKind, none, newline, Bool.or_eq_true, beq_iff_eq, reduceCtorEq, or_false]
    exact eq_comm
  · simp [newline] at invalid

theorem isName_iff (wellFormed : token.WellFormed) :
    token.isName = true ↔ token.kind = .identifier ∨ ∃ word, token.kind = .keyword word := by
  simp only [isName, Bool.or_eq_true, wellFormed.hasKind_iff (show Kind.identifier ≠ _ by simp)
    (by simp)]
  refine or_congr_right ?_
  cases token.kind <;> simp

end WellFormed

theorem exists_lexeme_of_mem_place {position : Position} {lexemes : List Lexeme} {token : Token}
    (member : token ∈ place position lexemes) :
    ∃ lexeme ∈ lexemes, token.kind = lexeme.kind ∧ token.wrapped = lexeme.wrapped := by
  induction lexemes generalizing position with
  | nil => simp [place] at member
  | cons lexeme rest ih =>
      rcases List.mem_cons.1 member with rfl | later
      · exact ⟨lexeme, by simp, rfl, rfl⟩
      · obtain ⟨other, found, same⟩ := ih later
        exact ⟨other, by simp [found], same⟩

end Token

namespace Lexeme

private theorem python_wellFormed {mode : PythonMode} {text : List Char} {lexeme : Lexeme}
    (member : lexeme ∈ (python mode text).1) :
    lexeme.wrapped = none ∨ lexeme.kind = .invalid ∧ lexeme.wrapped = some .python := by
  have blank {lexeme : Lexeme} {text : List Char} (member : lexeme ∈ blanks text) :
      lexeme.wrapped = none := by
    cases text with
    | nil => simp [blanks] at member
    | cons first rest =>
        simp only [blanks, List.mem_singleton] at member
        simp [member]
  unfold python at member
  dsimp only at member
  split at member
  · rcases List.mem_append.1 member with before | body
    · exact .inl (blank before)
    · simp only [List.mem_singleton] at body
      exact .inr (by simp [body, unclosed])
  · exact .inl (blank member)
  · rcases List.mem_append.1 member with before | body
    · exact .inl (blank before)
    · simp only [List.mem_singleton] at body
      exact .inl (by simp [body])

private theorem fromContext_wellFormed {context : LineContext} {text : List Char}
    {lexeme : Lexeme} (member : lexeme ∈ fromContext context text) :
    lexeme.wrapped = none ∨ lexeme.kind = .invalid ∧
      (lexeme.wrapped = some (.literal .string) ∨ lexeme.wrapped = some .python) := by
  have coreCase (first : Char) (rest : List Char) :
      (core first rest).1.wrapped = none ∨ (core first rest).1.kind = .invalid ∧
        ((core first rest).1.wrapped = some (.literal .string) ∨
          (core first rest).1.wrapped = some .python) :=
    (classify_kinds first rest).2.imp_right fun both => ⟨both.1, .inl both.2⟩
  fun_induction fromContext context text with
  | case1 => simp at member
  | case2 context first rest head behind following step ih =>
      rcases List.mem_cons.1 member with rfl | later
      · exact coreCase first rest
      · exact ih later
  | case3 context first rest head behind following mode step ih =>
      rcases List.mem_cons.1 member with rfl | later
      · exact coreCase first rest
      · rcases List.mem_append.1 later with embedded | later
        · exact (python_wellFormed embedded).imp_right fun both => ⟨both.1, .inr both.2⟩
        · exact ih later

end Lexeme

namespace Token

theorem wellFormed_of_mem_ofText {source : List Char} {token : Token}
    (member : token ∈ ofText source) : token.WellFormed := by
  obtain ⟨lexeme, found, kind, wrapped⟩ := exists_lexeme_of_mem_place member
  unfold WellFormed
  rw [kind, wrapped]
  exact Lexeme.fromContext_wellFormed found

/-- The tokens of a script that the grammar sees. -/
def visible (source : List Char) : List Token :=
  (ofText source).filter fun token => !token.kind.isTrivia

theorem visible_wellFormed {source : List Char} :
    ∀ token ∈ visible source, token.WellFormed :=
  fun _ member => wellFormed_of_mem_ofText (List.mem_filter.1 member).1

end Token

end NovelScript
