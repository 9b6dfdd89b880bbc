import NovelScript.Proofs.LineLexemes

/-!
# Line endings

A script whose lines end with a return and a newline is cut as the one whose lines end with the
newline alone: lexeme by lexeme the same kinds, and tokens on the same lines and columns.
-/

namespace NovelScript

/-! ## Texts -/

namespace Text

/-- The text with a return in front of every newline. -/
def crlf (text : List Char) : List Char :=
  text.flatMap fun character => if character = '\n' then ['\r', '\n'] else [character]

@[simp] theorem crlf_nil : crlf [] = [] := rfl

@[simp] theorem crlf_newline (rest : List Char) :
    crlf ('\n' :: rest) = '\r' :: '\n' :: crlf rest := by
  simp [crlf]

theorem crlf_cons {character : Char} (other : character ≠ '\n') (rest : List Char) :
    crlf (character :: rest) = character :: crlf rest := by
  simp [crlf, other]

@[simp] theorem crlf_append (first second : List Char) :
    crlf (first ++ second) = crlf first ++ crlf second := by
  simp [crlf]

/-- A line stays as it is. -/
theorem Unbroken.crlf {line : List Char} (unbroken : Unbroken line) : crlf line = line := by
  induction line with
  | nil => rfl
  | cons character rest ih =>
      have other : character ≠ '\n' := by
        rintro rfl
        simpa [isBreak] using unbroken.cons.1
      rw [crlf_cons other, ih unbroken.cons.2]

theorem crlf_eq_nil {text : List Char} : crlf text = [] ↔ text = [] := by
  cases text with
  | nil => simp
  | cons character rest =>
      by_cases newline : character = '\n'
      · simp [newline]
      · simp [crlf_cons newline]

theorem AtBreak.crlf {tail : List Char} (atBreak : AtBreak tail) : AtBreak (crlf tail) := by
  cases tail with
  | nil => exact atBreak_nil
  | cons character rest =>
      by_cases newline : character = '\n'
      · subst newline
        rw [crlf_newline]
        exact .cons rfl _
      · rw [crlf_cons newline]
        exact .cons (atBreak character rfl) _

/-- The length that the first `count` characters of a text have with returns. -/
def crlfLength (text : List Char) (count : Nat) : Nat := (crlf (text.take count)).length

private theorem crlf_split (text : List Char) (count : Nat) :
    crlf text = crlf (text.take count) ++ crlf (text.drop count) := by
  rw [← crlf_append, List.take_append_drop]

theorem crlf_take (text : List Char) (count : Nat) :
    (crlf text).take (crlfLength text count) = crlf (text.take count) := by
  rw [crlf_split text count, crlfLength, List.take_left]

theorem crlf_drop (text : List Char) (count : Nat) :
    (crlf text).drop (crlfLength text count) = crlf (text.drop count) := by
  rw [crlf_split text count, crlfLength, List.drop_left]

@[simp] theorem crlfLength_zero (text : List Char) : crlfLength text 0 = 0 := by
  simp [crlfLength]

theorem Unbroken.crlfLength {line : List Char} (unbroken : Unbroken line) (tail : List Char)
    {count : Nat} (within : count ≤ line.length) : crlfLength (line ++ tail) count = count := by
  have part : Unbroken (line.take count) := fun character member =>
    unbroken character (List.mem_of_mem_take member)
  rw [Text.crlfLength, List.take_append_of_le_length within, part.crlf, List.length_take]
  omega

theorem crlfLength_add (text : List Char) (first second : Nat) :
    crlfLength text (first + second) =
      crlfLength text first + crlfLength (text.drop first) second := by
  simp [crlfLength, List.take_add]

theorem crlfLength_cons {character : Char} (other : character ≠ '\n') (rest : List Char)
    (count : Nat) : crlfLength (character :: rest) (count + 1) = crlfLength rest count + 1 := by
  simp [crlfLength, crlf_cons other]

theorem crlfLength_newline (rest : List Char) (count : Nat) :
    crlfLength ('\n' :: rest) (count + 1) = crlfLength rest count + 2 := by
  simp [crlfLength]

theorem crlfLength_eq_zero {text : List Char} {count : Nat} (within : count ≤ text.length) :
    crlfLength text count = 0 ↔ count = 0 := by
  rw [crlfLength, List.length_eq_zero_iff, crlf_eq_nil, List.take_eq_nil_iff]
  constructor
  · rintro (zero | rfl)
    · exact zero
    · simpa using within
  · exact .inl

theorem Unbroken.isPrefixOf_crlf {quote : List Char} (unbroken : Unbroken quote)
    (text : List Char) : quote.isPrefixOf (Text.crlf text) = quote.isPrefixOf text := by
  induction quote generalizing text with
  | nil => simp
  | cons first quote ih =>
      cases text with
      | nil => rfl
      | cons character rest =>
          by_cases newline : character = '\n'
          · subst newline
            have other : (first == '\r') = false ∧ (first == '\n') = false := by
              simpa [isBreak] using unbroken.cons.1
            rw [crlf_newline, List.isPrefixOf, List.isPrefixOf, other.1, other.2]
            rfl
          · rw [crlf_cons newline, List.isPrefixOf, List.isPrefixOf, ih unbroken.cons.2]

end Text

open Text

/-! ## Quotations -/

namespace Quotation

private theorem closing?_return {quote : List Char} (nonempty : quote ≠ [])
    (unbroken : Unbroken quote) {break_ : Char} (breaks : isBreak break_ = true)
    (rest : List Char) :
    closing? quote (break_ :: rest) = (closing? quote rest).map (· + 1) := by
  have plain : break_ ≠ '\\' := by
    rintro rfl
    simp [isBreak] at breaks
  have open_ : quote.isPrefixOf (break_ :: rest) = false := by
    cases quote with
    | nil => contradiction
    | cons first quote =>
        have other : (first == break_) = false := by
          rw [beq_eq_false_iff_ne]
          rintro rfl
          simp [unbroken.cons.1] at breaks
        rw [List.isPrefixOf, other]
        rfl
  rw [closing?_cons plain, if_neg (by simp [open_])]

theorem closing?_crlf {quote : List Char} (nonempty : quote ≠ []) (unbroken : Unbroken quote)
    (text : List Char) :
    closing? quote (crlf text) = (closing? quote text).map (crlfLength text) := by
  have skips {break_ : Char} (breaks : isBreak break_ = true) (rest : List Char) :=
    closing?_return nonempty unbroken breaks rest
  fun_induction closing? quote text with
  | case1 => rfl
  | case2 => rfl
  | case3 escaped rest ih =>
      rw [crlf_cons (by decide)]
      by_cases newline : escaped = '\n'
      · subst newline
        rw [crlf_newline, closing?, if_pos rfl, skips (by decide), ih, Option.map_map,
          Option.map_map, Option.map_map]
        refine Option.map_congr fun count _ => ?_
        simp only [Function.comp_apply]
        rw [crlfLength_cons (by decide), crlfLength_newline]
      · rw [crlf_cons newline, closing?, if_pos rfl, ih, Option.map_map, Option.map_map]
        refine Option.map_congr fun count _ => ?_
        simp only [Function.comp_apply]
        rw [crlfLength_cons (by decide), crlfLength_cons newline]
  | case4 character rest plain quoted =>
      have same := unbroken.isPrefixOf_crlf (character :: rest)
      obtain ⟨tail, equal⟩ := List.isPrefixOf_iff_prefix.1 quoted
      have other : character ≠ '\n' := by
        rintro rfl
        obtain ⟨first, quote, rfl⟩ := List.exists_cons_of_ne_nil nonempty
        obtain rfl := (List.cons.inj equal).1
        simpa [isBreak] using unbroken.cons.1
      have count : crlfLength (character :: rest) quote.length = quote.length := by
        rw [← equal, unbroken.crlfLength tail (Nat.le_refl _)]
      rw [crlf_cons other] at same ⊢
      rw [closing?_cons plain, same, if_pos quoted, Option.map_some, count]
  | case5 character rest plain open_ ih =>
      by_cases newline : character = '\n'
      · subst newline
        rw [crlf_newline, skips (by decide), skips (by decide), ih, Option.map_map,
          Option.map_map, Option.map_map]
        exact Option.map_congr fun count _ => (crlfLength_newline rest count).symm
      · have same := unbroken.isPrefixOf_crlf (character :: rest)
        rw [crlf_cons newline] at same ⊢
        rw [closing?_cons plain, same, if_neg open_, ih, Option.map_map, Option.map_map]
        exact Option.map_congr fun count _ => (crlfLength_cons newline rest count).symm

theorem opening?_crlf (first : Char) (rest : List Char) :
    opening? first (crlf rest) = opening? first rest := by
  unfold opening?
  split
  · next quotes =>
      have unbroken : Unbroken [first, first] := by
        rcases quotes with rfl | rfl <;> simp [Unbroken, isBreak]
      rw [unbroken.isPrefixOf_crlf]
  · rfl

/-- What opens a quotation is a quote with its first character taken off. -/
theorem opening?_parts {first : Char} {rest quote : List Char}
    (opened : opening? first rest = some quote) :
    quote ≠ [] ∧ Unbroken quote ∧ ∃ body, rest = quote.tail ++ body := by
  unfold opening? at opened
  split at opened
  · next quotes =>
      have unbroken : isBreak first = false := by rcases quotes with rfl | rfl <;> rfl
      split at opened
      · next tripled =>
          cases opened
          obtain ⟨body, equal⟩ := List.isPrefixOf_iff_prefix.1 tripled
          exact ⟨by simp, by simp [Unbroken, unbroken], body, equal.symm⟩
      · cases opened
        exact ⟨by simp, by simp [Unbroken, unbroken], rest, rfl⟩
  · cases opened

theorem extent_crlf {quote : List Char} (nonempty : quote ≠ []) (unbroken : Unbroken quote)
    (body : List Char) :
    extent quote (crlf (quote.tail ++ body)) =
      (crlfLength (quote.tail ++ body) (extent quote (quote.tail ++ body)).1,
        (extent quote (quote.tail ++ body)).2) := by
  have solid : Unbroken quote.tail := fun character member =>
    unbroken character (List.mem_of_mem_tail member)
  have count : quote.length - 1 = quote.tail.length := List.length_tail.symm
  unfold extent
  simp only [crlf_append, solid.crlf, count, List.drop_left, closing?_crlf nonempty unbroken body]
  cases closing? quote body with
  | some length =>
      simp only [Option.map_some, Prod.mk.injEq, and_true]
      rw [crlfLength_add, solid.crlfLength body (Nat.le_refl _), List.drop_left]
  | none =>
      simp only [Option.map_none, Prod.mk.injEq, and_true]
      rw [crlfLength, List.take_length, crlf_append, solid.crlf]

end Quotation

/-! ## Spans of python -/

theorem PythonMode.endsAt_crlf (mode : PythonMode) {first : Char} {rest : List Char}
    (newline : first ≠ '\n') (plain : '\r' ∉ first :: rest) :
    mode.endsAt first (crlf rest) = mode.endsAt first rest := by
  have return_ : first ≠ '\r' := fun same => plain (by simp [same])
  simp [endsAt, newline, return_]

namespace PythonScan

private theorem lineBreakLength_le (text : List Char) : lineBreakLength text ≤ text.length := by
  unfold lineBreakLength
  split
  · next double => exact (List.isPrefixOf_iff_prefix.1 double).length_le
  split
  · next single => exact (List.isPrefixOf_iff_prefix.1 single).length_le
  · exact Nat.zero_le _

theorem length?_le {mode : PythonMode} {depth : Nat} {text : List Char} {length : Nat}
    (found : length? mode depth text = some length) : length ≤ text.length := by
  have within {kept skipped tail : Nat} {rest : List Char} (less : kept ≤ skipped)
      (inside : tail + skipped ≤ rest.length) : extend kept skipped tail ≤ rest.length := by
    unfold extend
    split <;> omega
  fun_induction length? mode depth text generalizing length with
  | case1 | case3 => cases found; exact Nat.zero_le _
  | case2 | case5 => cases found
  | case4 depth rest comment on =>
      rename_i ih
      obtain ⟨inner, behind, rfl⟩ := Option.map_eq_some_iff.1 found
      have less := ih behind
      have skipped := (rest.takeWhile_prefix (· != '\n')).length_le
      rw [List.length_drop] at less
      exact within (Nat.zero_le _) (by simp only [List.length_cons]; omega)
  | case6 depth character rest on hash quote opened extra closed =>
      rename_i ih
      obtain ⟨inner, behind, rfl⟩ := Option.map_eq_some_iff.1 found
      have less := ih behind
      have skipped := Quotation.extent_le quote rest
      rw [closed] at skipped
      rw [List.length_drop] at less
      exact within (Nat.le_refl _) (by simp only [List.length_cons]; omega)
  | case7 depth rest extra on hash opened =>
      rename_i ih
      obtain ⟨inner, behind, rfl⟩ := Option.map_eq_some_iff.1 found
      have less := ih behind
      have skipped := lineBreakLength_le rest
      rw [List.length_drop] at less
      exact within (Nat.le_add_right 1 extra) (by simp only [List.length_cons]; omega)
  | case8 depth character rest on hash opened plain_ =>
      rename_i ih
      obtain ⟨inner, behind, rfl⟩ := Option.map_eq_some_iff.1 found
      have less := ih behind
      exact within (by split <;> omega) (by simp only [List.length_cons]; omega)

private theorem lineBreakLength_crlf {text : List Char} (plain : '\r' ∉ text) :
    lineBreakLength (crlf text) = crlfLength text (lineBreakLength text) := by
  cases text with
  | nil => rfl
  | cons character rest =>
      have other : character ≠ '\r' := fun same => plain (by simp [same])
      by_cases newline : character = '\n'
      · subst newline
        simp [lineBreakLength, List.isPrefixOf, crlfLength_newline rest 0]
      · rw [crlf_cons newline]
        simp [lineBreakLength, List.isPrefixOf, beq_false_of_ne (Ne.symm newline),
          beq_false_of_ne (Ne.symm other)]

/-- Inside brackets the scan goes on over a line break. -/
private theorem length?_break (mode : PythonMode) {depth : Nat} (deep : depth ≠ 0)
    {break_ : Char} (breaks : isBreak break_ = true) (rest : List Char) :
    length? mode depth (break_ :: rest) = (length? mode depth rest).map (extend 0 1) := by
  rw [length?]
  simp only [isBreak, Bool.or_eq_true, decide_eq_true_eq] at breaks
  rcases breaks with rfl | rfl <;>
    simp [deep, Quotation.opening?, depthAfter, isWhiteSpace]

private theorem extend_extend (first second tail : Nat) :
    extend 0 first (extend 0 second tail) = extend 0 (first + second) tail := by
  unfold extend
  split <;> split <;> omega

/-- The scan behind `skipped` characters, seen from in front of them. -/
private theorem map_extend_crlf {mode : PythonMode} {depth : Nat} (text : List Char)
    (kept skipped : Nat) {scan : Option Nat}
    (behind : scan =
      (length? mode depth (text.drop skipped)).map (crlfLength (text.drop skipped))) :
    scan.map (extend (crlfLength text kept) (crlfLength text skipped)) =
      ((length? mode depth (text.drop skipped)).map (extend kept skipped)).map
        (crlfLength text) := by
  rw [behind, Option.map_map, Option.map_map]
  refine Option.map_congr fun tail found => ?_
  have zero := crlfLength_eq_zero (length?_le found)
  simp only [Function.comp_apply, extend, zero]
  split
  · rfl
  · exact (crlfLength_add text skipped tail).symm

/-- A comment inside brackets takes the return in front of its newline with it. -/
private theorem length?_comment (mode : PythonMode) {depth : Nat} (deep : depth ≠ 0)
    {rest : List Char} (plain : '\r' ∉ rest) :
    crlfLength rest (rest.takeWhile (· != '\n')).length = (rest.takeWhile (· != '\n')).length ∧
      (length? mode depth
          ((crlf rest).drop ((crlf rest).takeWhile (· != '\n')).length)).map
        (extend 0 (1 + ((crlf rest).takeWhile (· != '\n')).length)) =
      (length? mode depth (crlf (rest.drop (rest.takeWhile (· != '\n')).length))).map
        (extend 0 (1 + (rest.takeWhile (· != '\n')).length)) := by
  obtain ⟨line, tail, rfl, unbroken, atBreak⟩ := exists_line rest
  have within : ∀ character ∈ line, (character != '\n') = true := by
    intro character member
    have solid := unbroken character member
    simp only [isBreak, Bool.or_eq_false_iff, decide_eq_false_iff_not] at solid
    simpa using solid.2
  cases tail with
  | nil =>
      have all : line.takeWhile (· != '\n') = line := by
        rw [← List.append_nil line, List.takeWhile_append_of_pos within]
        rfl
      rw [List.append_nil, all, unbroken.crlf, all]
      have count := unbroken.crlfLength [] (Nat.le_refl line.length)
      rw [List.append_nil] at count
      simp [count]
  | cons first tail =>
      have newline : first = '\n' := by
        have breaks := atBreak first rfl
        simp only [isBreak, Bool.or_eq_true, decide_eq_true_eq] at breaks
        exact breaks.resolve_left fun same => plain (by simp [same])
      subst newline
      have taken (more : List Char) :
          (line ++ '\n' :: more).takeWhile (· != '\n') = line := by
        rw [List.takeWhile_append_of_pos within]
        simp
      have longer : (crlf (line ++ '\n' :: tail)).takeWhile (· != '\n') = line ++ ['\r'] := by
        rw [crlf_append, unbroken.crlf, crlf_newline, List.takeWhile_append_of_pos within]
        rfl
      rw [taken, longer]
      refine ⟨unbroken.crlfLength _ (Nat.le_refl _), ?_⟩
      have behind : (crlf (line ++ '\n' :: tail)).drop (line ++ ['\r']).length =
          '\n' :: crlf tail := by
        rw [crlf_append, unbroken.crlf, crlf_newline, List.append_cons line '\r' ('\n' :: crlf tail),
          List.drop_left]
      rw [behind, List.drop_left, crlf_newline, length?_break mode deep rfl ('\n' :: crlf tail),
        Option.map_map]
      refine Option.map_congr fun count _ => ?_
      rw [Function.comp_apply, extend_extend, List.length_append, List.length_singleton,
        Nat.add_assoc]

theorem length?_crlf (mode : PythonMode) (depth : Nat) {text : List Char} (plain : '\r' ∉ text) :
    length? mode depth (crlf text) = (length? mode depth text).map (crlfLength text) := by
  have part {rest : List Char} {character : Char} (plain : '\r' ∉ character :: rest) (count : Nat) :
      '\r' ∉ rest.drop count :=
    fun member => plain (List.mem_cons_of_mem character (List.mem_of_mem_drop member))
  fun_induction length? mode depth text with
  | case1 => simp [length?]
  | case2 depth deep => simp [length?, deep]
  | case3 depth character rest ends =>
      by_cases newline : character = '\n'
      · subst newline
        rw [crlf_newline, length?, if_pos ⟨ends.1, by simp [PythonMode.endsAt]⟩]
        rfl
      · rw [crlf_cons newline, length?, mode.endsAt_crlf newline plain, if_pos ends]
        rfl
  | case4 depth rest comment on =>
      rename_i ih
      have deep : depth ≠ 0 := fun zero => on ⟨zero, by simp [PythonMode.endsAt]⟩
      have behind := ih (part plain comment)
      have whole : ('#' :: rest).drop (1 + comment) = rest.drop comment := by
        rw [Nat.add_comm, List.drop_succ_cons]
      have seen := map_extend_crlf ('#' :: rest) 0 (1 + comment) (whole ▸ behind)
      obtain ⟨count, longer⟩ := length?_comment mode deep (part plain 0)
      rw [whole, crlfLength_zero, Nat.add_comm, crlfLength_cons (by decide),
        show crlfLength rest comment = comment from count, Nat.add_comm comment] at seen
      rw [crlf_cons (by decide), length?, mode.endsAt_crlf (by decide) plain, if_neg on,
        if_pos rfl]
      exact longer.trans seen
  | case5 depth character rest on hash quote opened extra open_ =>
      have newline := Quotation.ne_newline_of_opening? opened
      obtain ⟨nonempty, unbroken, body, rfl⟩ := Quotation.opening?_parts opened
      have extent := Quotation.extent_crlf nonempty unbroken body
      rw [open_] at extent
      rw [crlf_cons newline, length?, mode.endsAt_crlf newline plain, if_neg on, if_neg hash,
        Quotation.opening?_crlf, opened]
      simp only [extent]
      rfl
  | case6 depth character rest on hash quote opened extra closed =>
      rename_i ih
      have newline := Quotation.ne_newline_of_opening? opened
      have behind := ih (part plain extra)
      obtain ⟨nonempty, unbroken, body, equal⟩ := Quotation.opening?_parts opened
      have extent := Quotation.extent_crlf nonempty unbroken body
      rw [← equal, closed] at extent
      rw [crlf_cons newline, length?, mode.endsAt_crlf newline plain, if_neg on, if_neg hash,
        Quotation.opening?_crlf, opened]
      simp only [extent, crlf_drop]
      have count : crlfLength (character :: rest) (1 + extra) = 1 + crlfLength rest extra := by
        rw [Nat.add_comm, crlfLength_cons newline, Nat.add_comm]
      have whole : (character :: rest).drop (1 + extra) = rest.drop extra := by
        rw [Nat.add_comm, List.drop_succ_cons]
      have seen := map_extend_crlf (character :: rest) (1 + extra) (1 + extra)
        (whole ▸ behind)
      rwa [count, whole] at seen
  | case7 depth rest extra on hash opened =>
      rename_i ih
      have behind := ih (part plain extra)
      have rest_ : '\r' ∉ rest := part plain 0
      rw [crlf_cons (by decide), length?, mode.endsAt_crlf (by decide) plain, if_neg on,
        if_neg hash, Quotation.opening?_crlf, opened]
      simp only [if_true, lineBreakLength_crlf rest_, crlf_drop]
      have count : crlfLength ('\\' :: rest) (1 + extra) = 1 + crlfLength rest extra := by
        rw [Nat.add_comm, crlfLength_cons (by decide), Nat.add_comm]
      have whole : ('\\' :: rest).drop (1 + extra) = rest.drop extra := by
        rw [Nat.add_comm, List.drop_succ_cons]
      have seen := map_extend_crlf ('\\' :: rest) 1 (1 + extra) (whole ▸ behind)
      rwa [count, whole, crlfLength_cons (by decide) rest 0, crlfLength_zero] at seen
  | case8 depth character rest on hash opened plain_ =>
      rename_i ih
      have behind := ih (part plain 0)
      by_cases newline : character = '\n'
      · subst newline
        have deep : depth ≠ 0 := fun zero => on ⟨zero, by simp [PythonMode.endsAt]⟩
        have stays : depthAfter depth '\n' = depth := by simp [depthAfter]
        have seen := map_extend_crlf ('\n' :: rest) 0 1 behind
        rw [stays] at seen ⊢
        rw [crlf_newline, length?_break mode deep rfl, length?_break mode deep rfl,
          Option.map_map]
        simp only [crlfLength_newline, crlfLength_zero] at seen
        refine Eq.trans (Option.map_congr fun tail _ => ?_) seen
        exact extend_extend 1 1 tail
      · have seen := map_extend_crlf (character :: rest)
          (if isWhiteSpace character then 0 else 1) 1 behind
        have kept : crlfLength (character :: rest) (if isWhiteSpace character then 0 else 1) =
            if isWhiteSpace character then 0 else 1 := by
          split
          · exact crlfLength_zero _
          · rw [crlfLength_cons newline, crlfLength_zero]
        rw [kept, crlfLength_cons newline, crlfLength_zero] at seen
        rw [crlf_cons newline, length?, mode.endsAt_crlf newline plain, if_neg on, if_neg hash,
          Quotation.opening?_crlf, opened]
        simp only [plain_, if_false]
        exact seen

theorem ofText_le {mode : PythonMode} {text : List Char} {length : Nat}
    (found : ofText mode text = .complete length) : length ≤ text.length := by
  unfold ofText at found
  split at found
  · next scanned =>
      cases found
      exact length?_le scanned
  · cases found

theorem ofText_crlf (mode : PythonMode) {text : List Char} (plain : '\r' ∉ text) :
    ofText mode (crlf text) = match ofText mode text with
      | .complete length => .complete (crlfLength text length)
      | .unterminated => .unterminated := by
  unfold ofText
  rw [length?_crlf mode 0 plain]
  cases length? mode 0 text <;> rfl

end PythonScan

/-! ## Lexemes -/

namespace Lexeme

def crlf (lexeme : Lexeme) : Lexeme := { lexeme with text := Text.crlf lexeme.text }

private theorem quote?_crlf (first : Char) (rest : List Char) :
    quote? first (Text.crlf rest) = quote? first rest := by
  simp only [quote?, Quotation.opening?_crlf]

private theorem quote?_parts {first : Char} {rest quote : List Char}
    (opened : quote? first rest = some quote) :
    quote ≠ [] ∧ Unbroken quote ∧ ∃ body, rest = quote.tail ++ body := by
  unfold quote? at opened
  split at opened
  · next backquote =>
      cases opened
      have unbroken : isBreak first = false := by rw [backquote]; rfl
      exact ⟨by simp, by simp [Unbroken, unbroken], rest, rfl⟩
  · exact Quotation.opening?_parts opened

/-- A character other than a break starts the same lexeme, longer by the returns inside. -/
theorem classify_crlf {first : Char} (solid : isBreak first = false) (rest : List Char) :
    classify first (Text.crlf rest) = ((classify first rest).1, (classify first rest).2.1,
      crlfLength rest (classify first rest).2.2) := by
  by_cases string : opensString first = true
  · obtain ⟨quote, opened, equal⟩ := classify_of_opensString string rest
    obtain ⟨quote', opened', equal'⟩ := classify_of_opensString string (Text.crlf rest)
    obtain rfl : quote = quote' := by
      rw [quote?_crlf, opened] at opened'
      exact Option.some.inj opened'
    obtain ⟨nonempty, unbroken, body, rfl⟩ := quote?_parts opened
    rw [equal', equal, Quotation.extent_crlf nonempty unbroken]
    split <;> rfl
  · obtain ⟨line, tail, rfl, unbroken, atBreak⟩ := exists_line rest
    have plain : opensString first = false := by simpa using string
    rw [crlf_append, unbroken.crlf, classify_atBreak solid plain line atBreak,
      classify_atBreak solid plain line atBreak.crlf,
      unbroken.crlfLength tail (classify_le first line)]

theorem core_crlf {first : Char} {rest : List Char} (plain : '\r' ∉ first :: rest) :
    ∃ first' rest', Text.crlf (first :: rest) = first' :: rest' ∧
      core first' rest' = ((core first rest).1.crlf, Text.crlf (core first rest).2) := by
  by_cases newline : first = '\n'
  · subst newline
    refine ⟨_, _, crlf_newline rest, ?_⟩
    simp [core, classify, isBlank, crlf]
  · have return_ : first ≠ '\r' := fun same => plain (by simp [same])
    have solid : isBreak first = false := by simp [isBreak, newline, return_]
    refine ⟨_, _, crlf_cons newline rest, ?_⟩
    simp only [core, classify_crlf solid, crlf_take, crlf_drop, crlf, crlf_cons newline]

private theorem blanks_crlf (text : List Char) :
    (Text.crlf text).takeWhile isBlank = text.takeWhile isBlank ∧
      (Text.crlf text).dropWhile isBlank = Text.crlf (text.dropWhile isBlank) := by
  induction text with
  | nil => exact ⟨rfl, rfl⟩
  | cons character rest ih =>
      by_cases newline : character = '\n'
      · subst newline
        simp [isBlank]
      · by_cases blank : isBlank character = true
        · simp [crlf_cons newline, blank, ih]
        · simp [crlf_cons newline, blank]

private theorem blanks_map_crlf (text : List Char) :
    (blanks (text.takeWhile isBlank)).map crlf = blanks (text.takeWhile isBlank) := by
  have unbroken : Unbroken (text.takeWhile isBlank) := by
    intro character member
    have blank := List.all_eq_true.1 (List.all_takeWhile (p := isBlank) (l := text)) character
      member
    refine eq_false_of_ne_true fun breaks => ?_
    simp [isBlank_of_isBreak breaks] at blank
  have same := unbroken.crlf
  unfold blanks
  split
  · rfl
  · next equal =>
      rw [equal] at same
      simp [crlf, same]

theorem python_crlf (mode : PythonMode) {text : List Char} (plain : '\r' ∉ text) :
    python mode (Text.crlf text) =
      ((python mode text).1.map crlf, Text.crlf (python mode text).2) := by
  obtain ⟨before, body⟩ := blanks_crlf text
  have same := blanks_map_crlf text
  have solid : '\r' ∉ text.dropWhile isBlank := fun member =>
    plain ((List.dropWhile_sublist _).mem member)
  have scan := PythonScan.ofText_crlf mode solid
  unfold python
  simp only [before, body, scan]
  cases found : PythonScan.ofText mode (text.dropWhile isBlank) with
  | unterminated => simp [same, unclosed, crlf]
  | complete length =>
      cases length with
      | zero => simp [same]
      | succ length =>
          have inside := PythonScan.ofText_le found
          obtain ⟨count, equal⟩ := Nat.exists_eq_succ_of_ne_zero
            (mt (crlfLength_eq_zero inside).1 (Nat.succ_ne_zero length))
          have taken := crlf_take (text.dropWhile isBlank) (length + 1)
          have left := crlf_drop (text.dropWhile isBlank) (length + 1)
          simp only [equal] at taken left ⊢
          simp [same, crlf, taken, left]

/-- The lexemes of a script with returns are those of the script without. -/
theorem fromContext_crlf (context : LineContext) {text : List Char} (plain : '\r' ∉ text) :
    fromContext context (Text.crlf text) = (fromContext context text).map crlf := by
  have part (first : Char) (rest : List Char) : (core first rest).2 <:+ first :: rest :=
    ⟨(core first rest).1.text, core_text first rest⟩
  fun_induction fromContext context text with
  | case1 => simp [fromContext]
  | case2 context first rest head behind following step =>
      rename_i ih
      obtain ⟨first', rest', equal, same⟩ := core_crlf plain
      have later : '\r' ∉ behind := fun member => plain ((part first rest).mem member)
      rw [equal, fromContext, same]
      simp only
      rw [show (core first rest).1.crlf.kind = head.kind from rfl, step]
      simp only [List.map_cons]
      rw [ih later]
  | case3 context first rest head behind following mode step =>
      rename_i ih
      obtain ⟨first', rest', equal, same⟩ := core_crlf plain
      have later : '\r' ∉ behind := fun member => plain ((part first rest).mem member)
      have suffix_ : (python mode behind).2 <:+ behind :=
        ⟨joined (python mode behind).1, python_text mode behind⟩
      rw [equal, fromContext, same]
      simp only
      rw [show (core first rest).1.crlf.kind = head.kind from rfl, step]
      simp only [List.map_cons, List.map_append]
      rw [show Text.crlf (core first rest).2 = Text.crlf behind from rfl, python_crlf mode later,
        ih fun member => later (suffix_.mem member)]

end Lexeme

/-! ## Tokens -/

namespace Position

/-- The position in the text with returns: as many bytes further as there are lines before it. -/
def crlf (position : Position) : Position :=
  ⟨position.line, position.column, position.offset + position.line⟩

theorem crlf_after (position : Position) (text : List Char) :
    position.crlf.after (Text.crlf text) = (position.after text).crlf := by
  induction text generalizing position with
  | nil => rfl
  | cons character rest ih =>
      by_cases newline : character = '\n'
      · subst newline
        have moved : (position.crlf.step '\r').step '\n' = (position.step '\n').crlf := by
          simp only [crlf, step, Char.reduceEq, if_true, if_false, mk.injEq, true_and]
          simp only [show ('\r').utf8Size = 1 from rfl]
          omega
        rw [crlf_newline, after_cons, after_cons, moved, ih, after_cons]
      · have moved : position.crlf.step character = (position.step character).crlf := by
          simp only [crlf, step, newline, if_false, mk.injEq, true_and]
          omega
        rw [crlf_cons newline, after_cons, moved, ih, after_cons]

end Position

namespace Token

def crlf (token : Token) : Token := { token with span := ⟨token.start.crlf, token.stop.crlf⟩ }

theorem place_crlf (position : Position) (lexemes : List Lexeme) :
    place position.crlf (lexemes.map Lexeme.crlf) = (place position lexemes).map crlf := by
  induction lexemes generalizing position with
  | nil => rfl
  | cons lexeme rest ih =>
      simp only [List.map_cons, place, Lexeme.crlf, Position.crlf_after, ih]
      rfl

theorem ofText_crlf {source : List Char} (plain : '\r' ∉ source) :
    ofText (Text.crlf source) = (ofText source).map crlf := by
  unfold ofText Lexeme.ofText
  rw [Lexeme.fromContext_crlf .start plain]
  exact place_crlf .origin _

end Token

end NovelScript
