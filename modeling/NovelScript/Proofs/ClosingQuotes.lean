import Mathlib.Order.Bounds.Image
import NovelScript.Proofs.PythonSpans

/-!
# Closing quotes

A quotation ends with the first quote of its own sort that is not escaped, and nothing behind that
quote has a say in it.  The reader of the script grammar and the one of embedded python open a
quotation with the longest quote there is, and so end it at the same place.
-/

namespace NovelScript

namespace Quotation

/-- All quotes of the language. -/
def quotes : List (List Char) :=
  [[backquote], ['"'], ['\''], ['"', '"', '"'], ['\'', '\'', '\'']]

/-- Whether what comes behind a text is escaped.  A backslash that is not escaped itself escapes the
next character, whatever that is. -/
def escapes (text : List Char) : Bool :=
  text.foldl (fun escaped character => !escaped && character == '\\') false

/-- The places in a text where a quote stands and is not escaped. -/
def closings (quote text : List Char) : Set Nat :=
  {index | quote <+: text.drop index ∧ escapes (text.take index) = false}

variable {quote text : List Char}

/-! ## Escapes -/

theorem escapes_cons {character : Char} (plain : character ≠ '\\') (text : List Char) :
    escapes (character :: text) = escapes text := by
  simp [escapes, beq_false_of_ne plain]

theorem escapes_escaped (character : Char) (text : List Char) :
    escapes ('\\' :: character :: text) = escapes text := by
  simp [escapes]

/-! ## Places of quotes -/

theorem ne_nil_of_mem_quotes : ∀ quote ∈ quotes, quote ≠ [] := by decide

theorem backslash_notMem_of_mem_quotes : ∀ quote ∈ quotes, '\\' ∉ quote := by decide

theorem not_prefix_backslash (used : quote ∈ quotes) (text : List Char) :
    ¬quote <+: '\\' :: text := by
  have nonempty := ne_nil_of_mem_quotes quote used
  have plain := backslash_notMem_of_mem_quotes quote used
  cases quote with
  | nil => contradiction
  | cons first rest =>
      intro isPrefix
      exact plain (by simp [(List.cons_prefix_cons.1 isPrefix).1])

theorem closings_nil (used : quote ∈ quotes) : closings quote [] = ∅ := by
  have nonempty := ne_nil_of_mem_quotes quote used
  ext index
  simp [closings, nonempty]

theorem closings_backslash (used : quote ∈ quotes) : closings quote ['\\'] = ∅ := by
  have nonempty := ne_nil_of_mem_quotes quote used
  have unlike := not_prefix_backslash used []
  ext index
  cases index <;> simp [closings, nonempty, unlike]

/-- An escaped character is no place for a quote, and neither is the backslash in front of it. -/
theorem closings_escaped (used : quote ∈ quotes) (character : Char) (text : List Char) :
    closings quote ('\\' :: character :: text) = (· + 2) '' closings quote text := by
  have unlike := not_prefix_backslash used (character :: text)
  ext index
  match index with
  | 0 => simp [closings, unlike]
  | 1 => simp [closings, escapes]
  | index + 2 => simp [closings, escapes_escaped]

theorem closings_cons {character : Char} (plain : character ≠ '\\')
    (open_ : ¬quote <+: character :: text) :
    closings quote (character :: text) = (· + 1) '' closings quote text := by
  ext index
  cases index with
  | zero => simp [closings, open_]
  | succ index => simp [closings, escapes_cons plain]

theorem isLeast_closings_zero (quoted : quote <+: text) : IsLeast (closings quote text) 0 :=
  ⟨⟨quoted, rfl⟩, fun index _ => Nat.zero_le index⟩

/-- What is in front of a place of the quote, and then the quote. -/
theorem take_of_mem_closings {index : Nat} (closes : index ∈ closings quote text) :
    text.take (index + quote.length) = text.take index ++ quote := by
  rw [List.take_add, ← List.prefix_iff_eq_take.1 closes.1]

/-! ## Search -/

/-- The end of a quote of this width at the first of these places, if there is any. -/
inductive EndsFirst (places : Set Nat) (width : Nat) : Option Nat → Prop
  | found {index : Nat} (least : IsLeast places index) :
      EndsFirst places width (some (index + width))
  | missing (empty : places = ∅) : EndsFirst places width none

namespace EndsFirst

variable {places : Set Nat} {width : Nat} {answer : Option Nat}

theorem shift (ends : EndsFirst places width answer) (skipped : Nat) :
    EndsFirst ((· + skipped) '' places) width (answer.map (· + skipped)) := by
  have monotone : Monotone (· + skipped) := fun _ _ le => Nat.add_le_add_right le skipped
  cases ends with
  | @found index least =>
      rw [Option.map_some, Nat.add_right_comm]
      exact .found (monotone.map_isLeast least)
  | missing empty => exact .missing (by rw [empty, Set.image_empty])

theorem eq_some_iff (ends : EndsFirst places width answer) {count : Nat} :
    answer = some count ↔ ∃ index, IsLeast places index ∧ count = index + width := by
  cases ends with
  | @found index least =>
      rw [Option.some.injEq]
      constructor
      · rintro rfl
        exact ⟨index, least, rfl⟩
      · rintro ⟨other, least', rfl⟩
        rw [least.unique least']
  | missing empty => simp [empty, IsLeast]

theorem eq_none_iff (ends : EndsFirst places width answer) : answer = none ↔ places = ∅ := by
  cases ends with
  | found least => simpa using Set.nonempty_iff_ne_empty.1 ⟨_, least.1⟩
  | missing empty => simp [empty]

end EndsFirst

/-- The search finds the end of the first quote. -/
theorem closing?_endsFirst (used : quote ∈ quotes) (text : List Char) :
    EndsFirst (closings quote text) quote.length (closing? quote text) := by
  fun_induction closing? quote text with
  | case1 => exact .missing (closings_nil used)
  | case2 => exact .missing (closings_backslash used)
  | case3 character rest ih =>
      rw [closings_escaped used]
      exact ih.shift 2
  | case4 character rest plain quoted =>
      have least := isLeast_closings_zero (List.isPrefixOf_iff_prefix.1 quoted)
      have ends : EndsFirst _ quote.length _ := .found least
      rwa [Nat.zero_add] at ends
  | case5 character rest plain open_ ih =>
      rw [List.isPrefixOf_iff_prefix] at open_
      rw [closings_cons plain open_]
      exact ih.shift 1

/-- Nothing behind the closing quote has a say in where it is. -/
theorem closing?_take_append (used : quote ∈ quotes) {count : Nat}
    (found : closing? quote text = some count) (other : List Char) :
    closing? quote (text.take count ++ other) = some count := by
  obtain ⟨body, rest, rfl, closes, rfl⟩ := closes_of_closing? found
  rw [List.take_left]
  exact closing?_of_closes (ne_nil_of_mem_quotes quote used)
    (backslash_notMem_of_mem_quotes quote used) closes other

theorem byteLength_take_of_closing? (used : quote ∈ quotes) {count : Nat}
    (found : closing? quote text = some count) :
    Text.byteLength (text.take count) =
      Text.byteLength (text.take (count - quote.length)) + Text.byteLength quote := by
  obtain ⟨index, least, rfl⟩ := (closing?_endsFirst used text).eq_some_iff.1 found
  rw [take_of_mem_closings least.1, Text.byteLength_append, Nat.add_sub_cancel]

/-! ## Both readers -/

/-- A quotation is opened with the longest quote there is. -/
theorem longest_of_quote? {first : Char} {rest : List Char}
    (found : Lexeme.quote? first rest = some quote) :
    quote ∈ quotes ∧ quote <+: first :: rest ∧
      ∀ other ∈ quotes, other <+: first :: rest → other.length ≤ quote.length := by
  have sorts : ∀ other ∈ quotes, other.length = 1 ∨
      ∃ mark, IsMark mark ∧ other = [mark, mark, mark] := by
    simp [quotes, IsMark]
  unfold Lexeme.quote? opening? at found
  simp only [List.isPrefixOf_iff_prefix] at found
  -- Of all quotes only a tripled mark could be longer than the one that was found.
  suffices quote ∈ quotes ∧ quote <+: first :: rest ∧
      (IsMark first → [first, first] <+: rest → 3 ≤ quote.length) by
    obtain ⟨used, isPrefix, tripled⟩ := this
    refine ⟨used, isPrefix, fun other listed here => ?_⟩
    rcases sorts other listed with one | ⟨mark, isMark, rfl⟩
    · rw [one]
      exact List.length_pos_iff.2 (ne_nil_of_mem_quotes quote used)
    · obtain ⟨rfl, two⟩ := List.cons_prefix_cons.1 here
      exact tripled isMark two
  split at found
  · next single =>
      cases found
      subst single
      refine ⟨by decide, by simp, fun isMark => ?_⟩
      exact absurd isMark (by simp [IsMark, backquote])
  · split at found
    · next isMark =>
        split at found
        · next two =>
            cases found
            refine ⟨?_, List.cons_prefix_cons.2 ⟨rfl, two⟩, fun _ _ => Nat.le_refl 3⟩
            rcases isMark with rfl | rfl <;> decide
        · next alone =>
            cases found
            refine ⟨?_, by simp, fun _ two => absurd two alone⟩
            rcases isMark with rfl | rfl <;> decide
    · cases found

/-- The longest quote in front of a text opens a quotation. -/
theorem opens_of_longest (used : quote ∈ quotes) (inPython : quote ≠ [backquote])
    (longest : ∀ other ∈ quotes, other <+: quote ++ text → other.length ≤ quote.length) :
    Opens quote text := by
  have alone {mark : Char} (three : [mark, mark, mark] ∈ quotes) (one : quote = [mark]) :
      ¬[mark, mark] <+: text := by
    subst one
    intro two
    have short : 3 ≤ 1 := longest _ three (List.cons_prefix_cons.2 ⟨rfl, two⟩)
    omega
  simp only [quotes, List.mem_cons, List.not_mem_nil, or_false] at used
  rcases used with rfl | rfl | rfl | rfl | rfl
  · contradiction
  · exact .single (.inl rfl) (alone (by decide) rfl)
  · exact .single (.inr rfl) (alone (by decide) rfl)
  · exact .tripled (.inl rfl)
  · exact .tripled (.inr rfl)

theorem extent_of_closing?_eq_none (opens : Opens quote text) {first : Char} {rest : List Char}
    (split : first :: rest = quote ++ text) (missing : closing? quote text = none) :
    extent quote rest = (rest.length, false) := by
  cases quote with
  | nil => exact absurd rfl opens.ne_nil
  | cons mark more =>
      obtain ⟨-, rfl⟩ := List.cons.inj split
      simp [extent, missing]

end Quotation

namespace Lexeme

open Quotation

variable {quote text rest : List Char} {first : Char}

theorem classify_of_opens (opens : Opens quote text) (split : first :: rest = quote ++ text) :
    classify first rest =
      if (extent quote rest).2 then (.literal .string, none, (extent quote rest).1)
      else (.invalid, some (.literal .string), (extent quote rest).1) := by
  have isMark : IsMark first := by
    cases opens <;> obtain ⟨rfl, -⟩ := List.cons.inj split <;> assumption
  have opensString_ : opensString first = true := by
    rcases isMark with rfl | rfl <;> decide
  have unlike : first ≠ backquote := by
    rcases isMark with rfl | rfl <;> decide
  obtain ⟨other, found, equal⟩ := classify_of_opensString opensString_ rest
  rw [quote?, if_neg unlike, opening?_of_opens opens split] at found
  obtain rfl := Option.some.inj found
  exact equal

/-- A quotation that is closed is a string, and the text goes on behind its last quote. -/
theorem core_of_closing? (opens : Opens quote text) (split : first :: rest = quote ++ text)
    {count : Nat} (found : closing? quote text = some count) :
    core first rest = (⟨.literal .string, none, quote ++ text.take count⟩, text.drop count) := by
  obtain ⟨body, behind, rfl, closes, rfl⟩ := closes_of_closing? found
  have length : quote.length - 1 + body.length + 1 = (quote ++ body).length := by
    have := List.length_pos_iff.2 opens.ne_nil
    rw [List.length_append]
    omega
  rw [core, classify_of_opens opens split, extent_of_closes opens closes split]
  have taken : first :: rest.take (quote.length - 1 + body.length) = quote ++ body := by
    rw [← List.take_succ_cons, split, length, ← List.append_assoc, List.take_left]
  have left : rest.drop (quote.length - 1 + body.length) = behind := by
    rw [← @List.drop_succ_cons _ first, split, length, ← List.append_assoc, List.drop_left]
  simp [taken, left]

/-- A quotation that is never closed takes all there is. -/
theorem core_of_closing?_eq_none (opens : Opens quote text) (split : first :: rest = quote ++ text)
    (missing : closing? quote text = none) :
    core first rest = (unclosed (.literal .string) (quote ++ text), []) := by
  rw [core, classify_of_opens opens split, extent_of_closing?_eq_none opens split missing]
  simp [unclosed, split]

end Lexeme

namespace PythonScan

open Quotation

variable {quote text rest : List Char} {first : Char}

theorem length?_of_closing? (opens : Opens quote text) (split : first :: rest = quote ++ text)
    {count : Nat} (found : closing? quote text = some count) (mode : PythonMode) (depth : Nat) :
    length? mode depth (first :: rest) =
      (length? mode depth (text.drop count)).map
        (extend (quote.length + count) (quote.length + count)) := by
  obtain ⟨body, behind, rfl, closes, rfl⟩ := closes_of_closing? found
  rw [split, length?_of_quotation opens closes, List.drop_left, List.length_append]

theorem length?_of_closing?_eq_none (opens : Opens quote text)
    (split : first :: rest = quote ++ text) (missing : closing? quote text = none)
    (mode : PythonMode) (depth : Nat) : length? mode depth (first :: rest) = none := by
  rw [length?_of_opens opens split, extent_of_closing?_eq_none opens split missing,
    if_neg Bool.false_ne_true]

end PythonScan

namespace Quotation

/-- The readers of the script grammar and of embedded python take the same quotation from the front
of a text, and go on with the same text, or both find that it is never closed. -/
structure ReadAlike (quote text : List Char) : Prop where
  closed : ∀ (first : Char) (rest : List Char) (count : Nat), first :: rest = quote ++ text →
    closing? quote text = some count →
      Lexeme.core first rest =
        (⟨.literal .string, none, quote ++ text.take count⟩, text.drop count) ∧
      ∀ (mode : PythonMode) (depth : Nat), PythonScan.length? mode depth (first :: rest) =
        (PythonScan.length? mode depth (text.drop count)).map
          (PythonScan.extend (quote.length + count) (quote.length + count))
  unclosed : ∀ (first : Char) (rest : List Char), first :: rest = quote ++ text →
    closing? quote text = none →
      Lexeme.core first rest = (Lexeme.unclosed (.literal .string) (quote ++ text), []) ∧
      ∀ (mode : PythonMode) (depth : Nat), PythonScan.length? mode depth (first :: rest) = none

theorem Opens.readAlike {quote text : List Char} (opens : Opens quote text) :
    ReadAlike quote text where
  closed _ _ _ split found :=
    ⟨Lexeme.core_of_closing? opens split found,
      PythonScan.length?_of_closing? opens split found⟩
  unclosed _ _ split missing :=
    ⟨Lexeme.core_of_closing?_eq_none opens split missing,
      PythonScan.length?_of_closing?_eq_none opens split missing⟩

/-- A quotation that the reader of the script grammar opens is opened with the longest quote, and so
both read it alike. -/
theorem readAlike_of_quote? {first : Char} {rest quote : List Char}
    (opened : Lexeme.quote? first rest = some quote) (inPython : quote ≠ [backquote]) :
    ∃ text, first :: rest = quote ++ text ∧ ReadAlike quote text := by
  obtain ⟨used, ⟨text, split⟩, longest⟩ := longest_of_quote? opened
  rw [← split] at longest
  exact ⟨text, split.symm, (opens_of_longest used inPython longest).readAlike⟩

/-- A quotation ends with the first quote that is not escaped, whatever is behind that quote, and is
never closed if there is none.  If it was opened with the longest quote there is, as each of the two
readers does, and may stand in python, both read it alike. -/
theorem closing?_first_unescaped {quote : List Char} (used : quote ∈ quotes) (text : List Char) :
    (∀ count, closing? quote text = some count ↔
      ∃ index, IsLeast (closings quote text) index ∧ count = index + quote.length) ∧
    (closing? quote text = none ↔ closings quote text = ∅) ∧
    (∀ count, closing? quote text = some count →
      Text.byteLength (text.take count) =
        Text.byteLength (text.take (count - quote.length)) + Text.byteLength quote ∧
      ∀ other, closing? quote (text.take count ++ other) = some count) ∧
    (quote ≠ [backquote] →
      (∀ other ∈ quotes, other <+: quote ++ text → other.length ≤ quote.length) →
      ReadAlike quote text) := by
  have ends := closing?_endsFirst used text
  refine ⟨fun count => ends.eq_some_iff, ends.eq_none_iff, fun count found => ⟨?_, ?_⟩, ?_⟩
  · exact byteLength_take_of_closing? used found
  · exact closing?_take_append used found
  · intro inPython longest
    exact (opens_of_longest used inPython longest).readAlike

private def escapedQuote : List Char := ['\\', '"', '"', '"', '"', 'λ']

/-- Three quotes in a row close nothing if the first of them is escaped. -/
theorem escapedQuote_first_unescaped :
    IsLeast (closings ['"', '"', '"'] escapedQuote) 2 ∧
      ReadAlike ['"', '"', '"'] escapedQuote := by
  have used : ['"', '"', '"'] ∈ quotes := by decide
  obtain ⟨found, -, -, alike⟩ := closing?_first_unescaped used escapedQuote
  obtain ⟨index, least, equal⟩ := (found 5).1 (by decide)
  obtain rfl : index = 2 := by simpa using equal.symm
  exact ⟨least, alike (by decide) (by decide)⟩

end Quotation

end NovelScript
