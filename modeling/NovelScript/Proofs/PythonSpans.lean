import NovelScript.Proofs.PythonPieces

/-!
# Where a span of python ends

The length of a span, piece by piece: a run that stops gives the span without the white space at its
end, and one that cannot go on has left a quotation or a bracket open.
-/

namespace NovelScript

theorem PythonMode.endsAt_iff {mode : PythonMode} {character : Char} {rest : List Char} :
    mode.endsAt character rest = true ↔ mode.Ends (character :: rest) := by
  constructor
  · intro ends
    simp only [endsAt, Bool.or_eq_true, Bool.and_eq_true, decide_eq_true_eq] at ends
    rcases ends with ((rfl | ⟨index, rfl⟩) | ⟨rfl, newline⟩) | rfl
    · exact ⟨_, .newline, by simp⟩
    · exact ⟨_, .bracket index, by simp⟩
    · cases rest with
      | nil => cases newline
      | cons next rest =>
          cases newline
          exact ⟨_, .carriageReturn, by simp⟩
    · exact ⟨_, .comment, by simp⟩
  · rintro ⟨mark, terminator, later, split⟩
    cases terminator with
    | newline => cases split; simp [endsAt]
    | carriageReturn => cases split; simp [endsAt]
    | comment => cases split; simp [endsAt]
    | bracket index => cases split; simp [endsAt, index]

namespace PythonScan

open Quotation

/-! ## Length of a piece -/

theorem length?_of_comment {mode : PythonMode} {depth : Nat} (inside : 0 < depth)
    {comment rest : List Char} (line : '\n' ∉ comment) (ends : ∀ next ∈ rest.head?, next = '\n') :
    length? mode depth ('#' :: (comment ++ rest)) =
      (length? mode depth rest).map (extend 0 (comment.length + 1)) := by
  have taken : (comment ++ rest).takeWhile (· != '\n') = comment := by
    have stop : rest.takeWhile (· != '\n') = [] := by
      cases rest with
      | nil => rfl
      | cons next rest => simp [ends next rfl]
    rw [List.takeWhile_append_of_pos (by grind), stop, List.append_nil]
  rw [length?, if_neg (fun outside => inside.ne' outside.1), if_pos rfl]
  simp only [taken, List.drop_left, Nat.add_comm]

theorem length?_of_opens {mode : PythonMode} {depth : Nat} {quote behind later : List Char}
    (opens : Opens quote behind) {first : Char} (split : first :: later = quote ++ behind) :
    length? mode depth (first :: later) =
      if (extent quote later).2 then
        (length? mode depth (later.drop (extent quote later).1)).map
          (extend (1 + (extent quote later).1) (1 + (extent quote later).1))
      else none := by
  have isMark : IsMark first := by
    cases opens with
    | tripled isMark => obtain ⟨rfl, -⟩ := List.cons.inj split; exact isMark
    | single isMark other => obtain ⟨rfl, -⟩ := List.cons.inj split; exact isMark
  have on : mode.endsAt first later ≠ true := by
    rcases isMark with rfl | rfl <;> simp [PythonMode.endsAt]
  have hash : first ≠ '#' := by rcases isMark with rfl | rfl <;> decide
  rw [length?, if_neg (fun outside => on outside.2), if_neg hash]
  simp only [opening?_of_opens opens split]
  cases extent quote later with
  | mk extra closed => cases closed <;> rfl

theorem length?_of_quotation {mode : PythonMode} {depth : Nat} {quote body rest : List Char}
    (opens : Opens quote (body ++ rest)) (closes : Closes quote body) :
    length? mode depth (quote ++ (body ++ rest)) =
      (length? mode depth rest).map
        (extend (quote ++ body).length (quote ++ body).length) := by
  cases split : quote ++ (body ++ rest) with
  | nil => simp [opens.ne_nil] at split
  | cons first later =>
      have quoted := List.length_pos_iff.2 opens.ne_nil
      have total : (quote ++ body).length = quote.length - 1 + body.length + 1 := by
        rw [List.length_append]
        omega
      have behind : (first :: later).drop (quote ++ body).length = rest := by
        rw [← split, ← List.append_assoc, List.drop_left]
      rw [total, List.drop_succ_cons] at behind
      rw [length?_of_opens opens split.symm, extent_of_closes opens closes split.symm]
      simp only [behind, total, Nat.add_comm 1, if_true]

theorem length?_of_unclosed {mode : PythonMode} {depth : Nat} {text : List Char}
    (unclosed : Unclosed text) : length? mode depth text = none := by
  obtain ⟨quote, behind, rfl, opens, open_⟩ := unclosed
  cases split : quote ++ behind with
  | nil => simp [opens.ne_nil] at split
  | cons first later =>
      have never := extent_of_not_closes opens open_ split.symm
      rw [length?_of_opens opens split.symm, never, if_neg Bool.false_ne_true]

theorem lineBreakLength_of_lineBreak {lineBreak : List Char} (isBreak : LineBreak lineBreak)
    (rest : List Char) : lineBreakLength (lineBreak ++ rest) = lineBreak.length := by
  cases isBreak <;> simp [lineBreakLength, List.isPrefixOf]

theorem lineBreakLength_eq_zero {rest : List Char}
    (alone : ∀ lineBreak, LineBreak lineBreak → ¬lineBreak <+: rest) :
    lineBreakLength rest = 0 := by
  rw [lineBreakLength, if_neg, if_neg]
  · rw [List.isPrefixOf_iff_prefix]
    exact alone _ .newline
  · rw [List.isPrefixOf_iff_prefix]
    exact alone _ .carriageReturn

theorem length?_of_backslash (mode : PythonMode) (depth : Nat) (rest : List Char) :
    length? mode depth ('\\' :: rest) =
      (length? mode depth (rest.drop (lineBreakLength rest))).map
        (extend 1 (1 + lineBreakLength rest)) := by
  have on : ¬(depth = 0 ∧ mode.endsAt '\\' rest = true) := by simp [PythonMode.endsAt]
  rw [length?, if_neg on, if_neg (by decide), opening?_eq_none (by simp [IsMark])]
  rfl

theorem depthAfter_of_isOpening {bracket : Char} (opens : IsOpening bracket) (depth : Nat) :
    depthAfter depth bracket = depth + 1 := if_pos opens

theorem depthAfter_of_isClosing {bracket : Char} (closes : IsClosing bracket) (depth : Nat) :
    depthAfter depth bracket = depth - 1 := by
  rcases closes with rfl | rfl | rfl <;> rfl

theorem depthAfter_of_other {character : Char} (unopened : ¬IsOpening character)
    (unclosed : ¬IsClosing character) (depth : Nat) : depthAfter depth character = depth :=
  (if_neg unopened).trans (if_neg unclosed)

theorem length?_of_character {mode : PythonMode} {depth : Nat} {character : Char} {rest : List Char}
    (goes : depth = 0 → ¬mode.Ends (character :: rest)) (unquoted : ¬IsMark character)
    (hash : character ≠ '#') (backslash : character ≠ '\\') :
    length? mode depth (character :: rest) =
      (length? mode (depthAfter depth character) rest).map
        (extend (solid [character]).length 1) := by
  have on : ¬(depth = 0 ∧ mode.endsAt character rest = true) := fun ⟨outside, ends⟩ =>
    goes outside (PythonMode.endsAt_iff.1 ends)
  rw [length?, if_neg on, if_neg hash, opening?_eq_none unquoted]
  simp only [if_neg backslash, solid_singleton]

theorem length?_of_bracket {mode : PythonMode} {depth : Nat} {bracket : Char} {rest : List Char}
    (isBracket : IsOpening bracket ∨ IsClosing bracket)
    (goes : depth = 0 → ¬mode.Ends (bracket :: rest)) :
    length? mode depth (bracket :: rest) =
      (length? mode (depthAfter depth bracket) rest).map (extend (solid [bracket]).length 1) := by
  have plain : ¬IsMark bracket ∧ bracket ≠ '#' ∧ bracket ≠ '\\' := by
    rcases isBracket with (rfl | rfl | rfl) | rfl | rfl | rfl <;> simp [IsMark]
  exact length?_of_character goes plain.1 plain.2.1 plain.2.2

/-- A scan over a piece, the white space at its end aside.  A comment counts for nothing by itself,
but it only stands inside brackets, where a bracket has to follow. -/
theorem Piece.length?_eq {mode : PythonMode} {depth middle : Nat} {piece rest : List Char}
    (first : Piece depth piece rest middle) (goes : depth = 0 → ¬mode.Ends (piece ++ rest)) :
    ∃ kept, (kept = (solid piece).length ∨ 0 < middle) ∧
      length? mode depth (piece ++ rest) =
        (length? mode middle rest).map (extend kept piece.length) := by
  cases first with
  | comment inside line ends => exact ⟨0, .inr inside, length?_of_comment inside line ends⟩
  | quotation opens closes =>
      refine ⟨_, .inl rfl, ?_⟩
      rw [solid_quotation opens closes, List.append_assoc]
      exact length?_of_quotation opens closes
  | @continuation lineBreak rest isBreak =>
      refine ⟨_, .inl rfl, ?_⟩
      rw [List.cons_append, length?_of_backslash, lineBreakLength_of_lineBreak isBreak,
        List.drop_left, solid_continuation isBreak, List.length_cons, Nat.add_comm]
      rfl
  | backslash alone =>
      refine ⟨_, .inl rfl, ?_⟩
      rw [List.singleton_append, length?_of_backslash, lineBreakLength_eq_zero alone]
      rfl
  | opening opens =>
      refine ⟨_, .inl rfl, ?_⟩
      have scan := length?_of_bracket (.inl opens) goes
      rw [depthAfter_of_isOpening opens] at scan
      exact scan
  | closing closes =>
      refine ⟨_, .inl rfl, ?_⟩
      have scan := length?_of_bracket (.inr closes) goes
      rw [depthAfter_of_isClosing closes] at scan
      exact scan
  | other unopened unclosed unquoted hash backslash =>
      refine ⟨_, .inl rfl, ?_⟩
      have scan := length?_of_character goes unquoted hash backslash
      rw [depthAfter_of_other unopened unclosed] at scan
      exact scan

/-! ## Runs -/

theorem Stops.length?_eq {mode : PythonMode} {depth : Nat} {rest : List Char}
    (stops : Stops mode depth rest) : length? mode depth rest = some 0 := by
  obtain ⟨rfl, rfl | ends⟩ := stops
  · rw [length?, if_pos rfl]
  · cases rest with
    | nil => rw [length?, if_pos rfl]
    | cons character rest => rw [length?, if_pos ⟨rfl, PythonMode.endsAt_iff.2 ends⟩]

/-- A run that stops gives the span. -/
theorem Passes.length?_of_stops {mode : PythonMode} {depth last : Nat} {passed rest : List Char}
    (passes : Passes mode depth passed rest last) (stops : Stops mode last rest) :
    length? mode depth (passed ++ rest) = some (solid passed).length := by
  induction passes with
  | stay => exact stops.length?_eq
  | @next depth middle last piece passed rest goes first later ih =>
      obtain ⟨kept, counts, scan⟩ := first.length?_eq goes
      rw [List.append_assoc, scan, ih stops, Option.map_some, length_solid_append]
      rcases counts with rfl | inside
      · rfl
      -- Inside brackets something is kept behind the piece, so that the piece is kept as a whole.
      · obtain rfl := stops.1
        have some_ : (solid passed).length ≠ 0 :=
          (List.length_pos_iff.2 (later.solid_ne_nil inside)).ne'
        rw [extend, if_neg some_, extend, if_neg some_]

/-- A run that cannot go on gives none. -/
theorem Passes.length?_of_fails {mode : PythonMode} {depth last : Nat} {passed rest : List Char}
    (passes : Passes mode depth passed rest last) (fails : Fails last rest) :
    length? mode depth (passed ++ rest) = none := by
  induction passes with
  | stay =>
      rcases fails with ⟨rfl, inside⟩ | unclosed
      · rw [List.nil_append, length?, if_neg inside.ne']
      · exact length?_of_unclosed unclosed
  | next goes first later ih =>
      obtain ⟨kept, -, scan⟩ := first.length?_eq goes
      rw [List.append_assoc, scan, ih fails, Option.map_none]

theorem exists_piece {mode : PythonMode} {depth : Nat} {text : List Char} (nonempty : text ≠ [])
    (goes : depth = 0 → ¬mode.Ends text) :
    Unclosed text ∨ ∃ piece rest middle, text = piece ++ rest ∧ Piece depth piece rest middle := by
  obtain ⟨character, later, rfl⟩ := List.exists_cons_of_ne_nil nonempty
  by_cases hash : character = '#'
  · subst hash
    have inside : 0 < depth := Nat.pos_of_ne_zero fun outside =>
      goes outside ⟨_, .comment, by simp⟩
    refine .inr ⟨'#' :: later.takeWhile (· != '\n'), later.dropWhile (· != '\n'), depth, ?_,
      .comment inside ?_ ?_⟩
    · simp
    · exact fun member => by simpa using List.mem_takeWhile_imp member
    · intro next isNext
      have stop := List.head?_dropWhile_not (· != '\n') later
      rw [Option.mem_def.1 isNext] at stop
      simpa using stop
  by_cases isMark : IsMark character
  · obtain ⟨quote, behind, split, opens⟩ := exists_opens isMark later
    rw [split]
    by_cases closed : ∃ body, Closes quote body ∧ body <+: behind
    · obtain ⟨body, closes, rest, rfl⟩ := closed
      exact .inr ⟨_, rest, depth, (List.append_assoc ..).symm, .quotation opens closes⟩
    · exact .inl ⟨quote, behind, rfl, opens, fun body closes isPrefix =>
        closed ⟨body, closes, isPrefix⟩⟩
  by_cases backslash : character = '\\'
  · subst backslash
    by_cases carried : ∃ lineBreak, LineBreak lineBreak ∧ lineBreak <+: later
    · obtain ⟨lineBreak, isBreak, rest, rfl⟩ := carried
      exact .inr ⟨_, rest, depth, rfl, .continuation isBreak⟩
    · exact .inr ⟨_, later, depth, rfl, .backslash fun lineBreak isBreak isPrefix =>
        carried ⟨lineBreak, isBreak, isPrefix⟩⟩
  by_cases opens : IsOpening character
  · exact .inr ⟨[character], later, _, rfl, .opening opens⟩
  by_cases closes : IsClosing character
  · exact .inr ⟨[character], later, _, rfl, .closing closes⟩
  · exact .inr ⟨[character], later, _, rfl, .other opens closes isMark hash backslash⟩

/-- A scan is a run that stops or cannot go on. -/
theorem exists_passes (mode : PythonMode) (depth : Nat) (text : List Char) :
    ∃ passed rest last, text = passed ++ rest ∧ Passes mode depth passed rest last ∧
      (Stops mode last rest ∨ Fails last rest) := by
  by_cases nothing : text = []
  · refine ⟨[], text, depth, rfl, .stay, ?_⟩
    rcases Nat.eq_zero_or_pos depth with outside | inside
    · exact .inl ⟨outside, .inl nothing⟩
    · exact .inr (.inl ⟨nothing, inside⟩)
  by_cases ends : depth = 0 ∧ mode.Ends text
  · exact ⟨[], text, depth, rfl, .stay, .inl ⟨ends.1, .inr ends.2⟩⟩
  have goes (outside : depth = 0) : ¬mode.Ends text := fun ends_ => ends ⟨outside, ends_⟩
  rcases exists_piece nothing goes with unclosed | ⟨piece, behind, middle, split, first⟩
  · exact ⟨[], text, depth, rfl, .stay, .inr (.inr unclosed)⟩
  have shorter : behind.length < text.length := by
    have nonempty := List.length_pos_iff.2 first.ne_nil
    rw [split, List.length_append]
    omega
  obtain ⟨passed, rest, last, rfl, later, outcome⟩ := exists_passes mode middle behind
  rw [split] at goes
  exact ⟨piece ++ passed, rest, last, by rw [split, List.append_assoc], .next goes first later,
    outcome⟩
termination_by text.length

theorem ofText_complete_iff {mode : PythonMode} {text : List Char} {length : Nat} :
    ofText mode text = .complete length ↔ length? mode 0 text = some length := by
  unfold ofText
  split <;> simp_all

theorem ofText_unterminated_iff {mode : PythonMode} {text : List Char} :
    ofText mode text = .unterminated ↔
      ∃ passed rest depth, text = passed ++ rest ∧ Passes mode 0 passed rest depth ∧
        Fails depth rest := by
  have none_ : ofText mode text = .unterminated ↔ length? mode 0 text = none := by
    unfold ofText
    split <;> simp_all
  rw [none_]
  constructor
  · intro scanned
    obtain ⟨passed, rest, last, rfl, passes, stops | fails⟩ := exists_passes mode 0 text
    · rw [passes.length?_of_stops stops] at scanned
      cases scanned
    · exact ⟨passed, rest, last, rfl, passes, fails⟩
  · rintro ⟨passed, rest, depth, rfl, passes, fails⟩
    exact passes.length?_of_fails fails

/-- The span `kept`, and only white space behind it up to where a run stops in front of `rest`. -/
structure Delimits (mode : PythonMode) (kept blank rest : List Char) : Prop where
  passes : Passes mode 0 (kept ++ blank) rest 0
  stops : Stops mode 0 rest
  dark : ∀ last ∈ kept.getLast?, Text.isWhiteSpace last = false
  white : ∀ character ∈ blank, Text.isWhiteSpace character = true

namespace Delimits

variable {mode : PythonMode} {kept blank rest : List Char}

theorem solid_eq (delimits : Delimits mode kept blank rest) : solid (kept ++ blank) = kept := by
  have nothing : solid blank = [] := List.rdropWhile_eq_nil_iff.2 delimits.white
  rw [solid_append, if_pos nothing, solid, List.rdropWhile_eq_self_iff]
  intro nonempty
  rw [delimits.dark _ (List.getLast_mem_getLast? nonempty)]
  exact Bool.false_ne_true

theorem ofText_eq (delimits : Delimits mode kept blank rest) :
    ofText mode (kept ++ (blank ++ rest)) = .complete kept.length := by
  rw [ofText_complete_iff, ← List.append_assoc, delimits.passes.length?_of_stops delimits.stops,
    delimits.solid_eq]

/-- A span is the span of itself. -/
theorem alone (delimits : Delimits mode kept blank rest) : Delimits mode kept [] [] where
  passes := by
    have trimmed := delimits.passes.trimmed
    rwa [delimits.solid_eq, ← List.append_nil kept] at trimmed
  stops := ⟨rfl, .inl rfl⟩
  dark := delimits.dark
  white := by simp

theorem of_terminator {mark later : List Char} (delimits : Delimits mode kept blank (mark ++ later))
    (terminator : mode.Terminator mark) (other : List Char) :
    Delimits mode kept blank (mark ++ other) where
  passes := delimits.passes.of_shows (.terminator terminator later other)
  stops := ⟨rfl, .inr ⟨mark, terminator, List.prefix_append ..⟩⟩
  dark := delimits.dark
  white := delimits.white

end Delimits

theorem exists_delimits {mode : PythonMode} {text : List Char} {length : Nat}
    (scanned : ofText mode text = .complete length) :
    ∃ blank rest, text = text.take length ++ (blank ++ rest) ∧ (text.take length).length = length ∧
      Delimits mode (text.take length) blank rest := by
  rw [ofText_complete_iff] at scanned
  obtain ⟨passed, rest, last, rfl, passes, stops | fails⟩ := exists_passes mode 0 text
  · obtain rfl := stops.1
    rw [passes.length?_of_stops stops] at scanned
    obtain rfl : (solid passed).length = length := Option.some.inj scanned
    have whole : solid passed ++ passed.rtakeWhile Text.isWhiteSpace = passed :=
      List.rdropWhile_append_rtakeWhile
    have taken : (passed ++ rest).take (solid passed).length = solid passed :=
      (List.prefix_iff_eq_take.1 ((solid_isPrefix passed).trans (List.prefix_append ..))).symm
    rw [taken]
    refine ⟨passed.rtakeWhile Text.isWhiteSpace, rest, by rw [← List.append_assoc, whole], rfl, ?_⟩
    exact
      { passes := whole.symm ▸ passes
        stops := stops
        dark := fun last isLast => by
          obtain ⟨nonempty, rfl⟩ := List.mem_getLast?_eq_getLast isLast
          exact Bool.eq_false_iff.2 (List.rdropWhile_last_not _ _ nonempty)
        white := fun character member => List.mem_rtakeWhile_imp member }
  · rw [passes.length?_of_fails fails] at scanned
    cases scanned

/-- The length of a scanned span in bytes. -/
def byteLength (text : List Char) (scan : PythonScan) : Nat :=
  Text.byteLength (text.take (scan.length text))

theorem takeBytes_byteLength (text : List Char) (scan : PythonScan) :
    Text.takeBytes (scan.byteLength text) text = some (text.take (scan.length text)) := by
  have taken := Text.takeBytes_append (text.take (scan.length text)) (text.drop (scan.length text))
  rwa [List.take_append_drop] at taken

/-- Two texts with the same span in front have a span of the same length in bytes. -/
theorem byteLength_eq_of_complete {mode : PythonMode} {text other : List Char} {length : Nat}
    (scanned : ofText mode text = .complete length) (again : ofText mode other = .complete length)
    (same : other.take length = text.take length) :
    (ofText mode other).byteLength other = (ofText mode text).byteLength text := by
  rw [scanned, again]
  exact congrArg Text.byteLength same

/-- Spans are delimited exactly.  The length of a span is that of a prefix of the text, in bytes as
in characters, so that it is a boundary between two characters.  A span is empty or ends with
something else than white space, and it is the span of itself.  Only white space is between it and
where the run over it stops, at the end of the text or in front of the first terminator outside
brackets, quotations and continued lines, and nothing behind that terminator changes it.  A text is
unterminated, as a whole, exactly if a run leads to a quotation that is never closed or to the end
of the text inside a bracket. -/
theorem ofText_delimits (mode : PythonMode) (text : List Char) :
    (ofText mode text).length text ≤ text.length ∧
    Text.takeBytes ((ofText mode text).byteLength text) text =
      some (text.take ((ofText mode text).length text)) ∧
    (∀ length, ofText mode text = .complete length →
      ofText mode (text.take length) = .complete length ∧
      (ofText mode (text.take length)).byteLength (text.take length) =
        (ofText mode text).byteLength text ∧
      ∃ blank rest, text = text.take length ++ (blank ++ rest) ∧
        Delimits mode (text.take length) blank rest ∧
        ∀ mark later, mode.Terminator mark → rest = mark ++ later → ∀ other,
          let alike := text.take length ++ (blank ++ (mark ++ other))
          ofText mode alike = .complete length ∧
            (ofText mode alike).byteLength alike = (ofText mode text).byteLength text) ∧
    (ofText mode text = .unterminated →
      (ofText mode text).length text = text.length ∧
        (ofText mode text).byteLength text = Text.byteLength text) ∧
    (ofText mode text = .unterminated ↔
      ∃ passed rest depth, text = passed ++ rest ∧ Passes mode 0 passed rest depth ∧
        Fails depth rest) := by
  refine ⟨?within, takeBytes_byteLength text _, fun length scanned => ?spans,
    fun scanned => ?whole, ofText_unterminated_iff⟩
  case within =>
    cases scanned : ofText mode text with
    | complete length =>
        obtain ⟨-, -, -, taken, -⟩ := exists_delimits scanned
        rw [← taken]
        exact List.length_take_le' ..
    | unterminated => exact Nat.le_refl _
  case spans =>
    obtain ⟨blank, rest, split, taken, delimits⟩ := exists_delimits scanned
    have again := delimits.alone.ofText_eq
    rw [List.append_nil, List.append_nil, taken] at again
    have itself := byteLength_eq_of_complete scanned again (by rw [List.take_take, Nat.min_self])
    refine ⟨again, itself, blank, rest, split, delimits, ?_⟩
    rintro mark later terminator rfl other
    have scan := (delimits.of_terminator terminator other).ofText_eq
    rw [taken] at scan
    exact ⟨scan, byteLength_eq_of_complete scanned scan (List.take_left' taken)⟩
  case whole =>
    rw [scanned]
    exact ⟨rfl, congrArg Text.byteLength (List.take_length ..)⟩

end PythonScan

end NovelScript
