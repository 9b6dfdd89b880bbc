import NovelScript.Lexeme.Core
import NovelScript.Proofs.Vocabulary

/-!
# Lexemes within a line

Every core lexeme but a string looks no further than its own line: what it is depends on the text
up to the first line break alone, whatever comes behind that.
-/

namespace NovelScript

namespace Text

def isBreak (character : Char) : Bool := character = '\r' || character = '\n'

def Unbroken (line : List Char) : Prop := ∀ character ∈ line, isBreak character = false

theorem Unbroken.cons {character : Char} {line : List Char}
    (unbroken : Unbroken (character :: line)) : isBreak character = false ∧ Unbroken line :=
  List.forall_mem_cons.1 unbroken

/-- What may stand behind a line: nothing, or a line break and anything. -/
def AtBreak (text : List Char) : Prop := ∀ character ∈ text.head?, isBreak character = true

theorem atBreak_nil : AtBreak [] := by simp [AtBreak]

theorem AtBreak.cons {character : Char} (break_ : isBreak character = true) (rest : List Char) :
    AtBreak (character :: rest) := by
  intro first next
  obtain rfl : character = first := by simpa using next
  exact break_

theorem AtBreak.append {tail : List Char} (atBreak : AtBreak tail) (nonempty : tail ≠ [])
    (more : List Char) : AtBreak (tail ++ more) := by
  cases tail with
  | nil => contradiction
  | cons first rest => exact .cons (atBreak first rfl) (rest ++ more)

/-- A text is a line and what stands behind it. -/
theorem exists_line (text : List Char) : ∃ line tail, text = line ++ tail ∧
    Unbroken line ∧ AtBreak tail := by
  refine ⟨text.takeWhile (!isBreak ·), text.dropWhile (!isBreak ·),
    List.takeWhile_append_dropWhile.symm, ?_, ?_⟩
  · have all := List.all_takeWhile (p := (!isBreak ·)) (l := text)
    simpa only [Unbroken, List.all_eq_true, Bool.not_eq_true'] using all
  · intro character next
    have stops := List.head?_dropWhile_not (!isBreak ·) text
    rw [Option.mem_def.1 next] at stops
    simpa using stops

theorem takeWhile_atBreak {holds : Char → Bool} (line : List Char) {tail : List Char}
    (atBreak : AtBreak tail) (stops : ∀ character, isBreak character = true →
      holds character = false) : (line ++ tail).takeWhile holds = line.takeWhile holds := by
  rw [List.takeWhile_append]
  split
  · next whole =>
      have all : line.takeWhile holds = line := (List.takeWhile_prefix holds).eq_of_length whole
      cases tail with
      | nil => simp [all]
      | cons first rest => simp [all, stops first (atBreak first rfl)]
  · rfl

end Text

open Text

/-! ## Quotations -/

namespace Quotation

theorem closing?_cons {character : Char} (plain : character ≠ '\\') (quote rest : List Char) :
    closing? quote (character :: rest) = if quote.isPrefixOf (character :: rest) then
      some quote.length else (closing? quote rest).map (· + 1) := by
  cases rest <;> simp only [closing?, plain, if_false]

theorem skip_le_of_closing? {quote rest : List Char} {skip count : Nat}
    (found : closing? quote (rest.drop skip) = some count) : skip ≤ rest.length := by
  apply Nat.le_of_not_lt
  intro beyond
  rw [List.drop_eq_nil_of_le (Nat.le_of_lt beyond)] at found
  simp [closing?] at found

theorem extent_le (quote rest : List Char) :
    (extent quote rest).1 ≤ rest.length := by
  unfold extent
  dsimp only
  split
  · next count found =>
      have inside := skip_le_of_closing? found
      have most := closing?_le_length found
      simp only [List.length_drop] at most ⊢
      omega
  · exact Nat.le_refl _

theorem ne_newline_of_opening? {first : Char} {rest quote : List Char}
    (opened : opening? first rest = some quote) : first ≠ '\n' := by
  rintro rfl
  simp [opening?] at opened

end Quotation

namespace Lexeme

/-! ## Numbers -/

theorem isDigit_of_isBreak {character : Char} (break_ : isBreak character = true) :
    character.isDigit = false := by
  simp only [isBreak, Bool.or_eq_true, decide_eq_true_eq] at break_
  rcases break_ with rfl | rfl <;> decide

@[simp] theorem digitCount_atBreak (line : List Char) {tail : List Char} (atBreak : AtBreak tail) :
    digitCount (line ++ tail) = digitCount line := by
  rw [digitCount, takeWhile_atBreak line atBreak fun _ => isDigit_of_isBreak]
  rfl

theorem digitCount_le (text : List Char) : digitCount text ≤ text.length :=
  (text.takeWhile_prefix _).length_le

private theorem digitCount_tail {tail : List Char} (atBreak : AtBreak tail) :
    digitCount tail = 0 := by
  simpa [digitCount] using digitCount_atBreak [] atBreak

theorem exponentLength_atBreak (line : List Char) {tail : List Char} (atBreak : AtBreak tail) :
    exponentLength (line ++ tail) = exponentLength line := by
  cases line with
  | nil =>
      cases tail with
      | nil => rfl
      | cons first rest =>
          have break_ := atBreak first rfl
          simp only [isBreak, Bool.or_eq_true, decide_eq_true_eq] at break_
          rcases break_ with rfl | rfl <;> simp [exponentLength]
  | cons mark line =>
      cases line with
      | nil =>
          have none := digitCount_tail atBreak
          cases tail with
          | nil => rfl
          | cons first rest =>
              have break_ := atBreak first rfl
              simp only [isBreak, Bool.or_eq_true, decide_eq_true_eq] at break_
              rcases break_ with rfl | rfl <;> simp [exponentLength, none]
      | cons sign digits =>
          have whole : digitCount (sign :: (digits ++ tail)) = digitCount (sign :: digits) :=
            digitCount_atBreak (sign :: digits) atBreak
          simp only [List.cons_append, exponentLength, whole, digitCount_atBreak digits atBreak]

theorem exponentLength_le (text : List Char) : exponentLength text ≤ text.length := by
  unfold exponentLength
  split
  · split
    · split
      · next sign digits =>
          have := digitCount_le digits
          have := digitCount_le (sign :: digits)
          simp only [List.length_cons] at *
          split <;> split <;> omega
      · simp
    · simp
  · simp

theorem number_atBreak (line : List Char) {tail : List Char} (atBreak : AtBreak tail) :
    number (line ++ tail) = number line := by
  have within := digitCount_le line
  simp only [number, digitCount_atBreak line atBreak, List.drop_append_of_le_length within]
  cases line.drop (digitCount line) with
  | nil =>
      cases tail with
      | nil => rfl
      | cons first rest =>
          have break_ := atBreak first rfl
          simp only [isBreak, Bool.or_eq_true, decide_eq_true_eq] at break_
          rcases break_ with rfl | rfl <;> rfl
  | cons point fraction =>
      rw [List.cons_append]
      by_cases dot : point = '.'
      · subst dot
        simp only [digitCount_atBreak fraction atBreak,
          List.drop_append_of_le_length (digitCount_le fraction),
          exponentLength_atBreak _ atBreak]
      · split
        · next equal => simp_all
        · split
          · next equal => simp_all
          · rfl

theorem number_le (text : List Char) : (number text).2 ≤ text.length := by
  have whole := digitCount_le text
  unfold number
  dsimp only
  split
  · next fraction equal =>
      have digits := digitCount_le fraction
      have exponent := exponentLength_le (fraction.drop (digitCount fraction))
      have behind := congrArg List.length equal
      simp only [List.length_drop, List.length_cons] at behind exponent
      split <;> simp only <;> omega
  · exact whole

/-! ## Words and symbols -/

private theorem isNameContinue_of_isBreak {character : Char} (break_ : isBreak character = true) :
    isNameContinue character = false := by
  simp only [isBreak, Bool.or_eq_true, decide_eq_true_eq] at break_
  rcases break_ with rfl | rfl <;> decide +kernel

theorem isBlank_of_isBreak {character : Char} (break_ : isBreak character = true) :
    isBlank character = false := by
  simp only [isBreak, Bool.or_eq_true, decide_eq_true_eq] at break_
  rcases break_ with rfl | rfl <;> decide

/-- No symbol holds a line break. -/
theorem symbolKind?_of_isBreak {spelling : List Char} {character : Char}
    (member : character ∈ spelling) (break_ : isBreak character = true) :
    symbolKind? spelling = none := by
  have operators : ∀ operator ∈ Operator.all, operator.text.toList.any isBreak = false := by
    decide +kernel
  have marks : ∀ mark ∈ Punctuation.all, mark.text.toList.any isBreak = false := by
    decide +kernel
  have broken : spelling.any isBreak = true := List.any_eq_true.2 ⟨character, member, break_⟩
  unfold symbolKind?
  split
  · next operator found =>
      have spelled : operator.text.toList = spelling := by simpa using List.find?_some found
      have solid := operators operator (List.mem_of_find?_eq_some found)
      rw [spelled, broken] at solid
      cases solid
  · rw [Option.map_eq_none_iff, List.find?_eq_none]
    intro mark listed same
    have spelled : mark.text.toList = spelling := by simpa using same
    have solid := marks mark listed
    rw [spelled, broken] at solid
    cases solid

theorem symbol?_atBreak (first : Char) (line : List Char) {tail : List Char}
    (atBreak : AtBreak tail) : symbol? first (line ++ tail) = symbol? first line := by
  cases line with
  | cons second line => rfl
  | nil =>
      cases tail with
      | nil => rfl
      | cons second rest =>
          have none : symbolKind? [first, second] = none :=
            symbolKind?_of_isBreak (by simp) (atBreak second rfl)
          simp only [List.nil_append, symbol?, none]

theorem symbol?_le {first : Char} {rest : List Char} {kind : Kind} {extra : Nat}
    (found : symbol? first rest = some (kind, extra)) : extra ≤ rest.length := by
  unfold symbol? at found
  split at found
  · split at found
    · cases found
      simp
    · obtain ⟨kind, -, equal⟩ := Option.map_eq_some_iff.1 found
      cases equal
      simp
  · obtain ⟨kind, -, equal⟩ := Option.map_eq_some_iff.1 found
    cases equal
    simp

/-! ## One lexeme -/

/-- The quote of the string that `first` opens in front of a text. -/
def quote? (first : Char) (rest : List Char) : Option (List Char) :=
  if first = Quotation.backquote then some [first] else Quotation.opening? first rest

def opensString (first : Char) : Bool :=
  first = Quotation.backquote || first = '"' || first = '\''

theorem quote?_of_not {first : Char} (plain : opensString first = false) (rest : List Char) :
    quote? first rest = none := by
  simp only [opensString, Bool.or_eq_false_iff, decide_eq_false_iff_not] at plain
  simp [quote?, Quotation.opening?, plain.1.1, plain.1.2, plain.2]

theorem classify_of_opensString {first : Char} (opens : opensString first = true)
    (rest : List Char) : ∃ quote, quote? first rest = some quote ∧
      classify first rest =
        if (Quotation.extent quote rest).2 then
          (.literal .string, none, (Quotation.extent quote rest).1)
        else (.invalid, some (.literal .string), (Quotation.extent quote rest).1) := by
  have starts : startsWord first = false ∧ isBlank first = false ∧ first.isDigit = false ∧
      first ≠ '\n' ∧ first ≠ '\r' ∧ first ≠ '#' := by
    simp only [opensString, Bool.or_eq_true, decide_eq_true_eq] at opens
    rcases opens with (rfl | rfl) | rfl <;> decide +kernel
  obtain ⟨quote, found⟩ : ∃ quote, quote? first rest = some quote := by
    simp only [opensString, Bool.or_eq_true, decide_eq_true_eq] at opens
    unfold quote? Quotation.opening?
    split
    · exact ⟨_, rfl⟩
    · next other =>
        rw [if_pos ((or_assoc.1 opens).resolve_left other)]
        split <;> exact ⟨_, rfl⟩
  refine ⟨quote, found, ?_⟩
  obtain ⟨word, blank, digit, newline, return_, hash⟩ := starts
  have opened := found
  unfold quote? at opened
  simp only [classify, word, blank, digit, newline, return_, hash, Bool.false_eq_true, if_false,
    opened]
  rcases Quotation.extent quote rest with ⟨extra, _ | _⟩ <;> rfl

/-- What a character starts on its line, if that is no string, ends on that line. -/
theorem classify_atBreak {first : Char} (solid : isBreak first = false)
    (plain : opensString first = false) (line : List Char) {tail : List Char}
    (atBreak : AtBreak tail) : classify first (line ++ tail) = classify first line := by
  obtain ⟨return_, newline⟩ : first ≠ '\r' ∧ first ≠ '\n' := by
    simpa [isBreak] using solid
  have blanks := takeWhile_atBreak line atBreak fun _ => isBlank_of_isBreak
  have within (character : Char) (break_ : isBreak character = true) :
      (character != '\r' && character != '\n') = false := by
    simp only [isBreak, Bool.or_eq_true, decide_eq_true_eq] at break_
    rcases break_ with rfl | rfl <;> rfl
  have comment := takeWhile_atBreak line atBreak within
  have word := takeWhile_atBreak line atBreak fun _ => isNameContinue_of_isBreak
  have unquoted := quote?_of_not plain
  unfold quote? at unquoted
  simp only [classify, newline, return_, if_false, blanks, comment, word,
    number_atBreak line atBreak, unquoted, symbol?_atBreak first line atBreak]

theorem classify_le (first : Char) (rest : List Char) :
    (classify first rest).2.2 ≤ rest.length := by
  have within (holds : Char → Bool) : (rest.takeWhile holds).length ≤ rest.length :=
    (rest.takeWhile_prefix holds).length_le
  unfold classify
  split
  · exact within _
  split
  · exact Nat.zero_le _
  split
  · split
    · next follows =>
        obtain ⟨more, rfl⟩ := List.head?_eq_some_iff.1 follows
        simp
    · exact Nat.zero_le _
  split
  · exact within _
  split
  · exact within _
  split
  · exact number_le rest
  dsimp only
  split
  · next quote _ =>
      have inside := Quotation.extent_le quote rest
      split <;> simpa only [*] using inside
  · split
    · next found => exact symbol?_le found
    · exact Nat.zero_le _

/-- A string that is not closed takes all there is. -/
theorem core_unclosed {first : Char} {rest : List Char}
    (open_ : (core first rest).1.wrapped ≠ none) :
    (core first rest).1.kind = .invalid ∧ (core first rest).2 = [] := by
  have string : opensString first = true := by
    refine eq_true_of_ne_false fun plain => open_ ?_
    have unquoted := quote?_of_not plain rest
    unfold quote? at unquoted
    simp only [core, classify, unquoted]
    repeat' split
    all_goals rfl
  obtain ⟨quote, -, equal⟩ := classify_of_opensString string rest
  have unended : (Quotation.extent quote rest).2 = false := by
    refine eq_false_of_ne_true fun closed => open_ ?_
    simp [core, equal, closed]
  have all : (Quotation.extent quote rest).1 = rest.length := by
    unfold Quotation.extent at unended ⊢
    dsimp only at unended ⊢
    split <;> simp_all
  simp [core, equal, unended, all]

/-- A lexeme that is the same with more text behind takes nothing of that text. -/
theorem core_append_of_classify {first : Char} {rest more : List Char}
    (same : classify first (rest ++ more) = classify first rest) :
    core first (rest ++ more) = ((core first rest).1, (core first rest).2 ++ more) := by
  have within := classify_le first rest
  simp only [core, same, List.take_append_of_le_length within,
    List.drop_append_of_le_length within]

end Lexeme

end NovelScript
