import NovelScript.Proofs.Coverage
import NovelScript.Proofs.Embedding
import NovelScript.Proofs.LineLexemes

/-!
# Completed lines

A text that ends with a newline token, no backslash in front of that newline, is complete: what
follows it changes none of its tokens, and is cut into tokens as if it stood alone.
-/

namespace NovelScript

open Text

/-! ## Ends of texts -/

namespace Text

def EndsLine (text : List Char) : Prop := text.getLast? = some '\n'

theorem EndsLine.of_suffix {part text : List Char} (ends : EndsLine text) (suffix_ : part <:+ text)
    (nonempty : part ≠ []) : EndsLine part := by
  obtain ⟨front, rfl⟩ := suffix_
  rwa [EndsLine, List.getLast?_append_of_ne_nil front nonempty] at ends

theorem EndsLine.drop {text : List Char} (ends : EndsLine text) {count : Nat}
    (inside : count < text.length) : EndsLine (text.drop count) :=
  ends.of_suffix (text.drop_suffix count) (by simpa using inside)

theorem EndsLine.tail {first : Char} {rest : List Char} (ends : EndsLine (first :: rest))
    (other : first ≠ '\n') : EndsLine rest := by
  cases rest with
  | nil => simp [EndsLine, other] at ends
  | cons second rest => simpa [EndsLine, List.getLast?_cons_cons] using ends

theorem EndsLine.ne_nil {text : List Char} (ends : EndsLine text) : text ≠ [] := by
  rintro rfl
  simp [EndsLine] at ends

/-- A text whose last newline has a backslash in front of it. -/
def EndsEscaped (text : List Char) : Prop :=
  ['\\', '\n'] <:+ text ∨ ['\\', '\r', '\n'] <:+ text

theorem EndsEscaped.of_suffix {text whole : List Char} (escaped : EndsEscaped text)
    (suffix_ : text <:+ whole) : EndsEscaped whole :=
  escaped.imp (·.trans suffix_) (·.trans suffix_)

end Text

/-! ## Quotations -/

namespace Quotation

theorem quote_le_of_closing? {quote text : List Char} {count : Nat}
    (closed : closing? quote text = some count) : quote.length ≤ count := by
  fun_induction closing? quote text generalizing count with
  | case1 | case2 => simp at closed
  | case3 _ _ ih | case5 _ _ _ _ ih =>
      obtain ⟨inner, found, rfl⟩ := Option.map_eq_some_iff.1 closed
      exact Nat.le_trans (ih found) (Nat.le_add_right ..)
  | case4 => cases closed; exact Nat.le_refl _

/-- A quotation that is closed stays as it is, whatever follows the text. -/
theorem closing?_append {quote text : List Char} {count : Nat}
    (closed : closing? quote text = some count) (more : List Char) :
    closing? quote (text ++ more) = some count := by
  fun_induction closing? quote text generalizing count with
  | case1 | case2 => simp at closed
  | case3 escaped rest ih =>
      obtain ⟨inner, found, rfl⟩ := Option.map_eq_some_iff.1 closed
      simp [closing?, ih found]
  | case4 character rest plain quoted =>
      have longer : quote.isPrefixOf (character :: (rest ++ more)) = true :=
        List.isPrefixOf_iff_prefix.2
          ((List.isPrefixOf_iff_prefix.1 quoted).trans (List.prefix_append _ more))
      rw [List.cons_append, closing?_cons plain, if_pos longer]
      exact closed
  | case5 character rest plain open_ ih =>
      obtain ⟨inner, found, rfl⟩ := Option.map_eq_some_iff.1 closed
      -- A quote that needs text from behind would be longer than what closes the quotation.
      have still : quote.isPrefixOf (character :: (rest ++ more)) = false := by
        rw [Bool.eq_false_iff]
        intro quoted
        have short : quote.length ≤ (character :: rest).length := by
          have least := quote_le_of_closing? found
          have most := closing?_le_length found
          simp only [List.length_cons]
          omega
        exact open_ (List.isPrefixOf_iff_prefix.2 (List.prefix_of_prefix_length_le
          (List.isPrefixOf_iff_prefix.1 quoted) (List.prefix_append (character :: rest) more)
          short))
      rw [List.cons_append, closing?_cons plain, still, ih found]
      rfl

/-- A closed quotation ends with its quote. -/
theorem suffix_of_closing? {quote text : List Char} {count : Nat}
    (closed : closing? quote text = some count) : quote <:+ text.take count := by
  fun_induction closing? quote text generalizing count with
  | case1 | case2 => simp at closed
  | case3 _ _ ih =>
      obtain ⟨inner, found, rfl⟩ := Option.map_eq_some_iff.1 closed
      simp only [List.take_succ_cons]
      exact (ih found).trans ((List.suffix_cons ..).trans (List.suffix_cons ..))
  | case4 character rest plain quoted =>
      cases closed
      have whole := List.prefix_iff_eq_take.1 (List.isPrefixOf_iff_prefix.1 quoted)
      exact whole ▸ List.suffix_refl quote
  | case5 character rest plain open_ ih =>
      obtain ⟨inner, found, rfl⟩ := Option.map_eq_some_iff.1 closed
      exact (ih found).trans (List.suffix_cons ..)

theorem extent_append {quote rest : List Char} (closed : (extent quote rest).2 = true)
    (more : List Char) : extent quote (rest ++ more) = extent quote rest := by
  unfold extent at closed ⊢
  dsimp only at closed ⊢
  split at closed
  · next count found =>
      rw [List.drop_append_of_le_length (skip_le_of_closing? found), closing?_append found more]
  · cases closed

theorem opening?_append (first : Char) {rest : List Char} (ends : EndsLine rest)
    (more : List Char) : opening? first (rest ++ more) = opening? first rest := by
  unfold opening?
  split
  · next quote =>
      match rest, ends with
      | [last], ends =>
          obtain rfl : last = '\n' := by simpa [EndsLine] using ends
          rcases quote with rfl | rfl <;> simp [List.isPrefixOf]
      | second :: third :: rest, _ => simp [List.isPrefixOf]
  · rfl

private theorem last_of_opening? {first : Char} {rest quote : List Char}
    (opened : opening? first rest = some quote) :
    ∃ front, quote = front ++ [first] := by
  unfold opening? at opened
  split at opened
  · split at opened
    · cases opened; exact ⟨[first, first], rfl⟩
    · cases opened; exact ⟨[], rfl⟩
  · cases opened

/-- A closed quotation of a text that ends with a newline ends before that. -/
theorem extent_lt {first : Char} {quote rest : List Char} (ends : EndsLine rest)
    (opened : opening? first rest = some quote) (closed : (extent quote rest).2 = true) :
    (extent quote rest).1 < rest.length := by
  unfold extent at closed ⊢
  dsimp only at closed ⊢
  split at closed
  · next count found =>
      obtain ⟨front, rfl⟩ := last_of_opening? opened
      have most := closing?_le_length found
      have least := quote_le_of_closing? found
      simp only [List.length_drop, List.length_append, List.length_singleton] at most least ⊢
      refine Nat.lt_of_le_of_ne (by omega) fun whole => ?_
      -- Otherwise the text would end with the quote and with the newline.
      obtain ⟨start, equal⟩ := suffix_of_closing? found
      rw [List.take_of_length_le (by simp; omega)] at equal
      have newline := ends.drop (show (front ++ [first]).length - 1 < _ by simp; omega)
      rw [EndsLine, ← equal] at newline
      exact ne_newline_of_opening? opened (by simpa using newline)
  · cases closed

end Quotation

/-! ## Spans of python -/

theorem PythonScan.lineBreakLength_append {rest : List Char} (ends : EndsLine rest)
    (more : List Char) : lineBreakLength (rest ++ more) = lineBreakLength rest := by
  match rest, ends with
  | [last], ends =>
      obtain rfl : last = '\n' := by simpa [EndsLine] using ends
      simp [lineBreakLength, List.isPrefixOf]
  | first :: second :: rest, _ => simp [lineBreakLength, List.isPrefixOf]

theorem PythonMode.endsAt_append (mode : PythonMode) {first : Char} {rest : List Char}
    (ends : EndsLine (first :: rest)) (more : List Char) :
    mode.endsAt first (rest ++ more) = mode.endsAt first rest := by
  cases rest with
  | nil =>
      obtain rfl : first = '\n' := by simpa [EndsLine] using ends
      simp [endsAt]
  | cons second rest => rfl

namespace PythonScan

private theorem comment_lt {rest : List Char} (ends : EndsLine rest) :
    (rest.takeWhile (· != '\n')).length < rest.length := by
  refine Nat.lt_of_le_of_ne (rest.takeWhile_prefix _).length_le fun whole => ?_
  have all := (rest.takeWhile_prefix (· != '\n')).eq_of_length whole
  have kept := List.all_takeWhile (p := (· != '\n')) (l := rest)
  rw [all, List.all_eq_true] at kept
  simpa using kept '\n' (List.mem_of_getLast? ends)

private theorem lineBreak_lt {rest : List Char} (ends : EndsLine rest)
    (plain : ¬EndsEscaped ('\\' :: rest)) : lineBreakLength rest < rest.length := by
  refine Nat.lt_of_not_le fun whole => plain ?_
  have some_ := List.length_pos_iff.2 ends.ne_nil
  unfold lineBreakLength at whole
  split at whole
  · next double =>
      obtain ⟨last, rfl⟩ := List.isPrefixOf_iff_prefix.1 double
      obtain rfl : last = [] := by simpa using whole
      exact .inr (List.suffix_refl _)
  split at whole
  · next single =>
      obtain ⟨last, rfl⟩ := List.isPrefixOf_iff_prefix.1 single
      obtain rfl : last = [] := by simpa using whole
      exact .inl (List.suffix_refl _)
  · omega

/-- What ends a span in front of the last newline of a text ends it whatever follows.  Inside
brackets a newline goes on with the span, so that a scan may stand at the end of the text there. -/
private theorem length?_append_of {mode : PythonMode} {depth : Nat} {text : List Char}
    {length : Nat} (ends : EndsLine text ∨ text = [] ∧ 0 < depth) (plain : ¬EndsEscaped text)
    (found : length? mode depth text = some length) (more : List Char) :
    length? mode depth (text ++ more) = some length := by
  have later {whole part : List Char} (plain : ¬EndsEscaped whole) (suffix_ : part <:+ whole) :
      ¬EndsEscaped part := fun escaped => plain (escaped.of_suffix suffix_)
  fun_induction length? mode depth text generalizing length with
  | case1 => simp [EndsLine] at ends
  | case2 => cases found
  | case3 depth character rest ends_ =>
      have line : EndsLine (character :: rest) := ends.resolve_right (by simp)
      rw [List.cons_append, length?, mode.endsAt_append line, if_pos ends_]
      exact found
  | case4 depth rest comment on =>
      rename_i ih
      have whole : EndsLine ('#' :: rest) := ends.resolve_right (by simp)
      have line := whole.tail (by decide)
      have inside := comment_lt line
      have same : (rest ++ more).takeWhile (· != '\n') = rest.takeWhile (· != '\n') := by
        rw [List.takeWhile_append, if_neg (Nat.ne_of_lt inside)]
      obtain ⟨inner, behind, rfl⟩ := Option.map_eq_some_iff.1 found
      have further := ih (.inl (line.drop inside))
        (later plain ((rest.drop_suffix comment).trans (List.suffix_cons ..))) behind
      rw [List.cons_append, length?, mode.endsAt_append whole, if_neg on, if_pos rfl]
      simp only [same, List.drop_append_of_le_length (Nat.le_of_lt inside)]
      rw [further]
      rfl
  | case5 => cases found
  | case6 depth character rest on hash quote opened extra closed =>
      rename_i ih
      have whole : EndsLine (character :: rest) := ends.resolve_right (by simp)
      have line := whole.tail (Quotation.ne_newline_of_opening? opened)
      have inside := Quotation.extent_lt line opened (by rw [closed])
      have ended : (Quotation.extent quote rest).2 = true := by rw [closed]
      have same := Quotation.extent_append ended more
      rw [closed] at inside same
      obtain ⟨inner, behind, rfl⟩ := Option.map_eq_some_iff.1 found
      have further := ih (.inl (line.drop inside))
        (later plain ((rest.drop_suffix extra).trans (List.suffix_cons ..))) behind
      rw [List.cons_append, length?, mode.endsAt_append whole, if_neg on, if_neg hash,
        Quotation.opening?_append character line, opened]
      simp only [same, List.drop_append_of_le_length (Nat.le_of_lt inside)]
      rw [further]
      rfl
  | case7 depth rest extra on hash opened =>
      rename_i ih
      have whole : EndsLine ('\\' :: rest) := ends.resolve_right (by simp)
      have line := whole.tail (by decide)
      have inside := lineBreak_lt line plain
      obtain ⟨inner, behind, rfl⟩ := Option.map_eq_some_iff.1 found
      have further := ih (.inl (line.drop inside))
        (later plain ((rest.drop_suffix extra).trans (List.suffix_cons ..))) behind
      rw [List.cons_append, length?, mode.endsAt_append whole, if_neg on, if_neg hash,
        Quotation.opening?_append _ line, opened]
      simp only [if_true, lineBreakLength_append line,
        List.drop_append_of_le_length (Nat.le_of_lt inside)]
      rw [further]
      rfl
  | case8 depth character rest on hash opened plain_ =>
      rename_i ih
      have whole : EndsLine (character :: rest) := ends.resolve_right (by simp)
      obtain ⟨inner, behind, rfl⟩ := Option.map_eq_some_iff.1 found
      have line : EndsLine rest ∨ rest = [] ∧ character = '\n' := by
        cases rest with
        | nil => exact .inr ⟨rfl, by simpa [EndsLine] using whole⟩
        | cons second rest => exact .inl (by simpa [EndsLine, List.getLast?_cons_cons] using whole)
      have inside : EndsLine rest ∨ rest = [] ∧ 0 < depthAfter depth character := by
        rcases line with line | ⟨nil, rfl⟩
        · exact .inl line
        · have deep : depth ≠ 0 := fun zero => on ⟨zero, by simp [PythonMode.endsAt]⟩
          exact .inr ⟨nil, by simpa [depthAfter, Nat.pos_iff_ne_zero] using deep⟩
      have unquoted : Quotation.opening? character (rest ++ more) = none := by
        rcases line with line | ⟨rfl, rfl⟩
        · rw [Quotation.opening?_append character line, opened]
        · simp [Quotation.opening?]
      have further := ih inside (later plain (List.suffix_cons ..)) behind
      rw [List.cons_append, length?, mode.endsAt_append whole, if_neg on, if_neg hash, unquoted]
      simp only [plain_, if_false, further]
      rfl

/-- A span of python in front of a newline stays as it is, whatever follows the text. -/
theorem ofText_append {mode : PythonMode} {text : List Char} {length : Nat}
    (ends : EndsLine text) (plain : ¬EndsEscaped text)
    (found : ofText mode text = .complete length) (more : List Char) :
    ofText mode (text ++ more) = .complete length := by
  unfold ofText at found ⊢
  split at found
  · next inner scanned =>
      rw [length?_append_of (.inl ends) plain scanned more]
      exact found
  · cases found

end PythonScan

/-! ## Lexemes -/

namespace Lexeme

private theorem quote?_append (first : Char) {rest : List Char} (ends : EndsLine rest)
    (more : List Char) : quote? first (rest ++ more) = quote? first rest := by
  simp only [quote?, Quotation.opening?_append first ends]

/-- Unless it is a string that is not closed, a lexeme of a text that ends with a newline is the
same whatever follows. -/
theorem core_append {first : Char} {rest : List Char} (ends : EndsLine (first :: rest))
    (closed : (core first rest).1.wrapped = none) (more : List Char) :
    core first (rest ++ more) = ((core first rest).1, (core first rest).2 ++ more) := by
  apply core_append_of_classify
  by_cases newline : first = '\n'
  · subst newline
    simp [classify, isBlank]
  have line := ends.tail newline
  by_cases return_ : first = '\r'
  · subst return_
    obtain ⟨second, rest, rfl⟩ := List.exists_cons_of_ne_nil line.ne_nil
    simp [classify, isBlank]
  have solid : isBreak first = false := by simp [isBreak, newline, return_]
  by_cases string : opensString first = true
  · obtain ⟨quote, opened, equal⟩ := classify_of_opensString string rest
    obtain ⟨longer, opened', equal'⟩ := classify_of_opensString string (rest ++ more)
    obtain rfl : quote = longer := by
      rw [quote?_append first line, opened] at opened'
      exact Option.some.inj opened'
    have ended : (Quotation.extent quote rest).2 = true := by
      by_contra open_
      simp [core, equal, open_] at closed
    rw [equal', equal, Quotation.extent_append ended]
  · obtain ⟨front, tail, rfl, whole, atBreak⟩ := exists_line rest
    have nonempty : tail ≠ [] := by
      rintro rfl
      rw [List.append_nil] at line
      simpa [isBreak] using whole '\n' (List.mem_of_getLast? line)
    have plain : opensString first = false := by simpa using string
    rw [List.append_assoc, classify_atBreak solid plain front (atBreak.append nonempty more),
      classify_atBreak solid plain front atBreak]

/-- Python that ends in front of the last newline of a text is the same whatever follows. -/
theorem python_append (mode : PythonMode) {text : List Char} (ends : EndsLine text)
    (plain : ¬EndsEscaped text) (remains : (python mode text).2 ≠ []) (more : List Char) :
    python mode (text ++ more) = ((python mode text).1, (python mode text).2 ++ more) := by
  have some_ : text.dropWhile isBlank ≠ [] := by
    intro none
    apply remains
    simp [python, none, PythonScan.ofText, PythonScan.length?]
  have blanks_ : (text ++ more).takeWhile isBlank = text.takeWhile isBlank := by
    rw [List.takeWhile_append, if_neg]
    intro whole
    rw [← drop_length_takeWhile, whole, List.drop_length] at some_
    contradiction
  have body : (text ++ more).dropWhile isBlank = text.dropWhile isBlank ++ more := by
    rw [List.dropWhile_append, if_neg (by simpa using some_)]
  have line := ends.of_suffix (List.dropWhile_suffix _) some_
  have same {length : Nat}
      (found : PythonScan.ofText mode (text.dropWhile isBlank) = .complete length) :
      PythonScan.ofText mode (text.dropWhile isBlank ++ more) = .complete length :=
    PythonScan.ofText_append line
      (fun escaped => plain (escaped.of_suffix (List.dropWhile_suffix _))) found more
  unfold python at remains ⊢
  simp only [blanks_, body]
  dsimp only at remains
  split at remains
  · contradiction
  · next found => rw [same found]
  · next length found =>
      have inside : length + 1 ≤ (text.dropWhile isBlank).length := by
        have := List.length_pos_iff.2 remains
        simp only [List.length_drop] at this
        omega
      rw [same found]
      simp only [List.take_append_of_le_length inside, List.drop_append_of_le_length inside]

/-- Lexemes of a text that end with a newline. -/
def Complete (lexemes : List Lexeme) : Prop := ∃ newline ∈ lexemes.getLast?, newline.kind = .newline

theorem Complete.of_append (front : List Lexeme) {lexemes : List Lexeme}
    (complete : Complete (front ++ lexemes)) (nonempty : lexemes ≠ []) : Complete lexemes := by
  obtain ⟨newline, last, kind⟩ := complete
  rw [List.getLast?_append_of_ne_nil front nonempty] at last
  exact ⟨newline, last, kind⟩

theorem fromContext_eq_nil {context : LineContext} {text : List Char} :
    fromContext context text = [] ↔ text = [] := by
  constructor
  · intro none
    have whole := joined_fromContext context text
    rwa [none, joined_nil, eq_comm] at whole
  · rintro rfl
    rw [fromContext]

theorem text_of_mem_newline {context : LineContext} {text : List Char} {lexeme : Lexeme}
    (member : lexeme ∈ fromContext context text) (newline : lexeme.kind = .newline) :
    lexeme.text = ['\n'] ∨ lexeme.text = ['\r', '\n'] := by
  fun_induction fromContext context text with
  | case1 => simp at member
  | case2 context first rest head behind following step ih =>
      rcases List.mem_cons.1 member with rfl | later
      · exact text_of_newline newline
      · exact ih later
  | case3 context first rest head behind following mode step ih =>
      rcases List.mem_cons.1 member with rfl | later
      · exact text_of_newline newline
      · rcases List.mem_append.1 later with embedded | later
        · exact absurd newline (python_within_line embedded)
        · exact ih later

theorem Complete.endsLine {context : LineContext} {text : List Char}
    (complete : Complete (fromContext context text)) : EndsLine text := by
  obtain ⟨newline, last, kind⟩ := complete
  obtain ⟨front, equal⟩ := List.getLast?_eq_some_iff.1 last
  have whole := joined_fromContext context text
  rw [equal, joined_append] at whole
  rcases text_of_mem_newline (List.mem_of_getLast? last) kind with text_ | text_ <;>
    simp [EndsLine, ← whole, text_, joined]

/-- The lexeme in front of a newline is closed. -/
theorem Complete.closed {context : LineContext} {first : Char} {rest : List Char}
    (complete : Complete ((core first rest).1 :: fromContext context (core first rest).2)) :
    (core first rest).1.wrapped = none := by
  by_contra open_
  obtain ⟨invalid, all⟩ := core_unclosed open_
  rw [all, fromContext] at complete
  obtain ⟨newline, last, kind⟩ := complete
  obtain rfl : (core first rest).1 = newline := by simpa using last
  rw [invalid] at kind
  cases kind

/-- Behind a newline that completes a text, anything is cut as if it stood alone. -/
theorem fromContext_append {context : LineContext} {text : List Char}
    (complete : Complete (fromContext context text)) (plain : ¬EndsEscaped text)
    (more : List Char) :
    fromContext context (text ++ more) = fromContext context text ++ ofText more := by
  have ends := complete.endsLine
  have part (first : Char) (rest : List Char) : (core first rest).2 <:+ first :: rest :=
    ⟨(core first rest).1.text, core_text first rest⟩
  fun_induction fromContext context text with
  | case1 => simp [EndsLine] at ends
  | case2 context first rest head behind following step =>
      rename_i ih
      rw [List.cons_append, fromContext, core_append ends complete.closed more]
      simp only
      rw [step]
      refine congrArg (head :: ·) ?_
      by_cases last : behind = []
      · obtain ⟨newline, same, kind⟩ := complete
        rw [fromContext_eq_nil.2 last] at same
        obtain rfl : head = newline := by simpa using same
        rw [kind] at step
        obtain rfl : .start = following := congrArg Prod.fst step
        rw [show (core first rest).2 = behind from rfl, last, fromContext]
        rfl
      · have later := complete.of_append [head] (mt fromContext_eq_nil.1 last)
        exact ih later (fun escaped => plain (escaped.of_suffix (part first rest)))
          later.endsLine
  | case3 context first rest head behind following mode step =>
      rename_i ih
      have opens : head.kind ≠ .newline ∧ head.kind ≠ .invalid := by
        constructor <;> intro same <;> rw [same] at step <;> cases context <;>
          simp [LineContext.next] at step
      have closed : (core first rest).1.wrapped = none := by
        by_contra open_
        exact opens.2 (core_unclosed open_).1
      have remains : (python mode behind).2 ≠ [] := by
        intro none
        rw [none, fromContext, List.append_nil] at complete
        obtain ⟨newline, last, kind⟩ := complete
        rcases List.mem_cons.1 (List.mem_of_getLast? last) with rfl | embedded
        · exact opens.1 kind
        · exact python_within_line embedded kind
      have later : Complete (fromContext following (python mode behind).2) :=
        complete.of_append (head :: (python mode behind).1)
          (mt fromContext_eq_nil.1 remains)
      have suffix_ : (python mode behind).2 <:+ first :: rest :=
        .trans ⟨joined (python mode behind).1, python_text mode behind⟩ (part first rest)
      have nonempty : behind ≠ [] := by
        intro none
        rw [none] at remains
        exact remains (List.length_eq_zero_iff.1 (Nat.le_zero.1 (python_rest_length_le mode [])))
      have line := ends.of_suffix (part first rest) nonempty
      rw [List.cons_append, fromContext, core_append ends closed more]
      simp only
      rw [step]
      refine congrArg (head :: ·) ?_
      rw [python_append mode line (fun escaped => plain (escaped.of_suffix (part first rest)))
        remains more]
      simp only
      rw [ih later (fun escaped => plain (escaped.of_suffix suffix_)) later.endsLine]
      exact (List.append_assoc ..).symm

end Lexeme

/-! ## Places behind a text -/

namespace Position

/-- The position with a text of whole lines put in front. -/
def behind (text : List Char) (position : Position) : Position :=
  ⟨position.line + text.count '\n', position.column, position.offset + byteLength text⟩

theorem behind_after (front : List Char) (position : Position) (text : List Char) :
    (position.behind front).after text = (position.after text).behind front := by
  induction text generalizing position with
  | nil => rfl
  | cons character rest ih =>
      have moved : (position.behind front).step character =
          (position.step character).behind front := by
        unfold step behind
        split <;> simp only [mk.injEq, true_and] <;> omega
      rw [after_cons, after_cons, moved, ih]

/-- A text of whole lines leads to the start of a line. -/
theorem after_endsLine {text : List Char} (whole : text = [] ∨ EndsLine text) :
    origin.after text = origin.behind text := by
  have column : (origin.after text).column = 0 := by
    rcases whole with rfl | ends
    · rfl
    · obtain ⟨front, rfl⟩ := List.getLast?_eq_some_iff.1 ends
      simp [step]
  have line := after_line origin text
  have offset := after_offset origin text
  have parts : origin.after text = ⟨(origin.after text).line, (origin.after text).column,
      (origin.after text).offset⟩ := rfl
  rw [parts, line, offset, column]
  rfl

end Position

namespace Token

/-- The token with a text of whole lines put in front. -/
def behind (text : List Char) (token : Token) : Token :=
  { token with span := ⟨token.start.behind text, token.stop.behind text⟩ }

theorem place_behind (front : List Char) (position : Position) (lexemes : List Lexeme) :
    place (position.behind front) lexemes = (place position lexemes).map (behind front) := by
  induction lexemes generalizing position with
  | nil => rfl
  | cons lexeme rest ih =>
      simp only [place, List.map_cons, Position.behind_after, ih]
      rfl

theorem complete_of_place {position : Position} {lexemes : List Lexeme} {newline : Token}
    (last : newline ∈ (place position lexemes).getLast?) (kind : newline.kind = .newline) :
    Lexeme.Complete lexemes := by
  have kinds := congrArg List.getLast? (place_kinds position lexemes)
  rw [List.getLast?_map, List.getLast?_map, Option.mem_def.1 last] at kinds
  obtain ⟨lexeme, found, same⟩ := Option.map_eq_some_iff.1 kinds.symm
  exact ⟨lexeme, found, same.trans kind⟩

/-- Behind whole lines, a text is cut into tokens as it is where it stands alone. -/
theorem ofText_append_of_wholeLines {lines : List Char}
    (whole : lines = [] ∨ Lexeme.Complete (Lexeme.ofText lines) ∧ ¬EndsEscaped lines)
    (text : List Char) :
    ofText (lines ++ text) = ofText lines ++ (ofText text).map (behind lines) := by
  have cut : Lexeme.ofText (lines ++ text) = Lexeme.ofText lines ++ Lexeme.ofText text := by
    rcases whole with rfl | ⟨complete, plain⟩
    · simp [Lexeme.ofText, Lexeme.fromContext]
    · exact Lexeme.fromContext_append complete plain text
  have ends : lines = [] ∨ EndsLine lines := whole.imp_right fun both => both.1.endsLine
  rw [ofText, cut, place_append, Lexeme.joined_ofText, Position.after_endsLine ends, place_behind]
  rfl

/-- Complete lines keep their tokens whatever follows, and what follows is cut into tokens as if it
stood alone. -/
theorem ofText_append_of_complete {lines : List Char}
    (complete : lines = [] ∨
      (∃ newline ∈ (ofText lines).getLast?, newline.kind = .newline) ∧ ¬EndsEscaped lines)
    (text : List Char) :
    ofText (lines ++ text) = ofText lines ++ (ofText text).map (behind lines) := by
  refine ofText_append_of_wholeLines (complete.imp_right ?_) text
  rintro ⟨⟨newline, last, kind⟩, plain⟩
  exact ⟨complete_of_place last kind, plain⟩

private def twoLines : List Char := "define a = (1, # b\n'\\\n')\n".toList

/-- Python in brackets runs over two line ends, and the third completes the text. -/
theorem twoLines_append_of_complete :
    (twoLines = [] ∨ (∃ newline ∈ (ofText twoLines).getLast?, newline.kind = .newline) ∧
        ¬EndsEscaped twoLines) ∧
      ofText (twoLines ++ "jump b".toList) =
        ofText twoLines ++ (ofText "jump b".toList).map (behind twoLines) := by
  have complete : twoLines = [] ∨
      (∃ newline ∈ (ofText twoLines).getLast?, newline.kind = .newline) ∧
        ¬EndsEscaped twoLines := by
    refine .inr ⟨⟨⟨.newline, ⟨⟨2, 2, 24⟩, ⟨3, 0, 25⟩⟩, none⟩, by decide +kernel, rfl⟩, ?_⟩
    unfold EndsEscaped
    decide +kernel
  exact ⟨complete, ofText_append_of_complete complete "jump b".toList⟩

end Token

end NovelScript
