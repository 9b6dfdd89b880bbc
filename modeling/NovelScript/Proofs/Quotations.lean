import NovelScript.Proofs.LineLexemes

/-!
# Quotations

What it means to open and to close a quotation, apart from the search for it.  A body ends with the
first quote that does not follow a backslash which is not escaped itself, so nothing behind a body
can close it earlier.  How a quotation opens depends on what is behind its first quote, as three in
a row are one quote.
-/

namespace NovelScript.Quotation

/-- A quote that may be tripled. -/
def IsMark (character : Char) : Prop := character = '"' ∨ character = '\''

/-- A quote in front of `rest`, tripled if it can be. -/
inductive Opens : List Char → List Char → Prop
  | tripled {mark : Char} {rest : List Char} (isMark : IsMark mark) :
      Opens [mark, mark, mark] rest
  | single {mark : Char} {rest : List Char} (isMark : IsMark mark)
      (other : ¬[mark, mark] <+: rest) : Opens [mark] rest

/-- A body up to and including the quote that closes it. -/
inductive Closes (quote : List Char) : List Char → Prop
  | ends : Closes quote quote
  | escaped {character : Char} {body : List Char} (later : Closes quote body) :
      Closes quote ('\\' :: character :: body)
  | plain {character : Char} {body : List Char} (other : character ≠ '\\')
      (open_ : ¬quote <+: character :: body) (later : Closes quote body) :
      Closes quote (character :: body)

/-- A text that opens a quotation which is never closed. -/
def Unclosed (text : List Char) : Prop :=
  ∃ quote behind, text = quote ++ behind ∧ Opens quote behind ∧
    ∀ body, Closes quote body → ¬body <+: behind

/-! ## Opening -/

theorem Opens.exists_mark {quote rest : List Char} (opens : Opens quote rest) :
    ∃ mark, IsMark mark ∧ mark ∈ quote ∧ ∀ character ∈ quote, character = mark := by
  cases opens with
  | @tripled mark rest isMark => exact ⟨mark, isMark, by simp, by simp⟩
  | @single mark rest isMark other => exact ⟨mark, isMark, by simp, by simp⟩

theorem opening?_eq_none {character : Char} (unquoted : ¬IsMark character) (rest : List Char) :
    opening? character rest = none := if_neg unquoted

/-- The quote in front of a text is found. -/
theorem opening?_of_opens {quote rest : List Char} (opens : Opens quote rest) {first : Char}
    {later : List Char} (split : first :: later = quote ++ rest) :
    opening? first later = some quote := by
  cases opens with
  | @tripled mark rest isMark =>
      obtain ⟨rfl, rfl⟩ := List.cons.inj split
      unfold IsMark at isMark
      rw [opening?, if_pos isMark, if_pos]
      simp [List.isPrefixOf]
  | @single mark rest isMark other =>
      obtain ⟨rfl, rfl⟩ := List.cons.inj split
      unfold IsMark at isMark
      rw [opening?, if_pos isMark, if_neg]
      rwa [List.isPrefixOf_iff_prefix]

theorem exists_opens {first : Char} (isMark : IsMark first) (later : List Char) :
    ∃ quote behind, first :: later = quote ++ behind ∧ Opens quote behind := by
  by_cases three : [first, first] <+: later
  · obtain ⟨rest, rfl⟩ := three
    exact ⟨_, rest, rfl, .tripled isMark⟩
  · exact ⟨_, later, rfl, .single isMark three⟩

/-! ## Closing -/

theorem Closes.suffix {quote body : List Char} (closes : Closes quote body) : quote <:+ body := by
  induction closes with
  | ends => exact List.suffix_refl _
  | escaped later ih => exact ih.trans ((List.suffix_cons ..).trans (List.suffix_cons ..))
  | plain other open_ later ih => exact ih.trans (List.suffix_cons ..)

/-- A body is found in front of any text, as long as its quote is not mistaken for a backslash. -/
theorem closing?_of_closes {quote body : List Char} (nonempty : quote ≠ [])
    (plain : '\\' ∉ quote) (closes : Closes quote body) (rest : List Char) :
    closing? quote (body ++ rest) = some body.length := by
  induction closes with
  | ends =>
      cases quote with
      | nil => contradiction
      | cons first later =>
          have other : first ≠ '\\' := fun same => plain (by simp [same])
          rw [List.cons_append, closing?_cons other, if_pos]
          rw [← List.cons_append, List.isPrefixOf_iff_prefix]
          exact List.prefix_append _ _
  | escaped later ih => simp [closing?, ih]
  | @plain character body other open_ later ih =>
      rw [List.cons_append, closing?_cons other, if_neg, ih, Option.map_some, List.length_cons]
      rw [List.isPrefixOf_iff_prefix]
      intro quoted
      have fits : quote.length ≤ (character :: body).length :=
        Nat.le_succ_of_le later.suffix.length_le
      exact open_ (List.prefix_of_prefix_length_le quoted (List.prefix_append _ rest) fits)

/-- What is found is a body. -/
theorem closes_of_closing? {quote text : List Char} {count : Nat}
    (closed : closing? quote text = some count) :
    ∃ body rest, text = body ++ rest ∧ Closes quote body ∧ body.length = count := by
  fun_induction closing? quote text generalizing count with
  | case1 | case2 => cases closed
  | case3 character rest ih =>
      obtain ⟨inner, found, rfl⟩ := Option.map_eq_some_iff.1 closed
      obtain ⟨body, later, rfl, closes, rfl⟩ := ih found
      exact ⟨_, later, rfl, .escaped closes, rfl⟩
  | case4 character rest plain quoted =>
      obtain ⟨later, split⟩ := List.isPrefixOf_iff_prefix.1 quoted
      cases closed
      exact ⟨quote, later, split.symm, .ends, rfl⟩
  | case5 character rest plain open_ ih =>
      obtain ⟨inner, found, rfl⟩ := Option.map_eq_some_iff.1 closed
      obtain ⟨body, later, rfl, closes, rfl⟩ := ih found
      rw [List.isPrefixOf_iff_prefix] at open_
      have unquoted : ¬quote <+: character :: body := fun quoted =>
        open_ (quoted.trans (List.prefix_append (character :: body) later))
      exact ⟨_, later, rfl, .plain plain unquoted closes, rfl⟩

/-! ## Both -/

private theorem drop_quote {quote behind : List Char} (opens : Opens quote behind) {first : Char}
    {later : List Char} (split : first :: later = quote ++ behind) :
    later.drop (quote.length - 1) = behind := by
  cases opens with
  | tripled isMark =>
      obtain ⟨-, rfl⟩ := List.cons.inj split
      rfl
  | single isMark other =>
      obtain ⟨-, rfl⟩ := List.cons.inj split
      rfl

theorem Opens.ne_nil {quote rest : List Char} (opens : Opens quote rest) : quote ≠ [] := by
  cases opens <;> simp

theorem Opens.backslash_notMem {quote rest : List Char} (opens : Opens quote rest) :
    '\\' ∉ quote := by
  obtain ⟨mark, isMark, -, all⟩ := opens.exists_mark
  intro member
  rcases isMark with rfl | rfl
  · exact absurd (all _ member) (by decide)
  · exact absurd (all _ member) (by decide)

theorem extent_of_closes {quote body rest : List Char} (opens : Opens quote (body ++ rest))
    (closes : Closes quote body) {first : Char} {later : List Char}
    (split : first :: later = quote ++ (body ++ rest)) :
    extent quote later = (quote.length - 1 + body.length, true) := by
  simp only [extent, drop_quote opens split,
    closing?_of_closes opens.ne_nil opens.backslash_notMem closes]

theorem extent_of_not_closes {quote behind : List Char} (opens : Opens quote behind)
    (open_ : ∀ body, Closes quote body → ¬body <+: behind) {first : Char} {later : List Char}
    (split : first :: later = quote ++ behind) : (extent quote later).2 = false := by
  cases found : closing? quote behind with
  | none => simp only [extent, drop_quote opens split, found]
  | some count =>
      obtain ⟨body, rest, rfl, closes, -⟩ := closes_of_closing? found
      exact absurd (List.prefix_append body rest) (open_ body closes)

end NovelScript.Quotation
