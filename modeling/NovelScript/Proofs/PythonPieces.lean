import Mathlib.Data.List.DropRight
import NovelScript.Proofs.Quotations

/-!
# Pieces of python

Python is read piece by piece: quotations, comments inside brackets, backslashes with the line break
they carry over, and single characters.  `Passes` is a run over pieces that nowhere stands at the
end of a span, with the bracket depth it starts from and the one it leads to.  A piece looks ahead
at what is behind it, but never beyond the end of a span, and a run without the white space at its
end still is one.
-/

namespace NovelScript

namespace PythonMode

/-- What ends a span outside brackets. -/
inductive Terminator (mode : PythonMode) : List Char → Prop
  | newline : Terminator mode ['\n']
  | carriageReturn : Terminator mode ['\r', '\n']
  | comment : Terminator mode ['#']
  | bracket (index : mode = .index) : Terminator mode [']']

/-- A text that starts with the end of a span. -/
def Ends (mode : PythonMode) (text : List Char) : Prop :=
  ∃ mark, mode.Terminator mark ∧ mark <+: text

theorem Terminator.length_le {mode : PythonMode} {mark : List Char}
    (terminator : mode.Terminator mark) : mark.length ≤ 2 := by
  cases terminator <;> simp

end PythonMode

namespace PythonScan

open Quotation

/-- A bracket that opens; brackets of all sorts count alike. -/
def IsOpening (character : Char) : Prop :=
  character = '(' ∨ character = '[' ∨ character = '\x7b'

/-- A bracket that closes. -/
def IsClosing (character : Char) : Prop :=
  character = ')' ∨ character = ']' ∨ character = '\x7d'

/-- What a backslash carries a span over. -/
inductive LineBreak : List Char → Prop
  | newline : LineBreak ['\n']
  | carriageReturn : LineBreak ['\r', '\n']

/-- One piece of python inside `depth` brackets, in front of `rest`, and the depth behind it. -/
inductive Piece (depth : Nat) : List Char → List Char → Nat → Prop
  | comment {comment rest : List Char} (inside : 0 < depth) (line : '\n' ∉ comment)
      (ends : ∀ next ∈ rest.head?, next = '\n') : Piece depth ('#' :: comment) rest depth
  | quotation {quote body rest : List Char} (opens : Opens quote (body ++ rest))
      (closes : Closes quote body) : Piece depth (quote ++ body) rest depth
  | continuation {lineBreak rest : List Char} (isBreak : LineBreak lineBreak) :
      Piece depth ('\\' :: lineBreak) rest depth
  | backslash {rest : List Char}
      (alone : ∀ lineBreak, LineBreak lineBreak → ¬lineBreak <+: rest) :
      Piece depth ['\\'] rest depth
  | opening {bracket : Char} {rest : List Char} (opens : IsOpening bracket) :
      Piece depth [bracket] rest (depth + 1)
  | closing {bracket : Char} {rest : List Char} (closes : IsClosing bracket) :
      Piece depth [bracket] rest (depth - 1)
  | other {character : Char} {rest : List Char} (unopened : ¬IsOpening character)
      (unclosed : ¬IsClosing character) (unquoted : ¬IsMark character) (hash : character ≠ '#')
      (backslash : character ≠ '\\') : Piece depth [character] rest depth

/-- A run over pieces in front of `rest`, from inside `depth` brackets to inside `last`, that
nowhere stands at the end of a span. -/
inductive Passes (mode : PythonMode) : Nat → List Char → List Char → Nat → Prop
  | stay {depth : Nat} {rest : List Char} : Passes mode depth [] rest depth
  | next {depth middle last : Nat} {piece passed rest : List Char}
      (goes : depth = 0 → ¬mode.Ends (piece ++ (passed ++ rest)))
      (first : Piece depth piece (passed ++ rest) middle)
      (later : Passes mode middle passed rest last) : Passes mode depth (piece ++ passed) rest last

/-- Outside brackets, at the end of the text or of the span. -/
def Stops (mode : PythonMode) (depth : Nat) (rest : List Char) : Prop :=
  depth = 0 ∧ (rest = [] ∨ mode.Ends rest)

/-- Inside a bracket or a quotation that is never closed. -/
def Fails (depth : Nat) (rest : List Char) : Prop :=
  rest = [] ∧ 0 < depth ∨ Unclosed rest

/-! ## What a run looks ahead at -/

/-- Whatever a piece looks ahead at in `other` is in front of `text` as well. -/
structure Shows (text other : List Char) : Prop where
  head : ∀ next ∈ other.head?, next ∈ text.head?
  lineBreak : ∀ lineBreak, LineBreak lineBreak → lineBreak <+: other → lineBreak <+: text

theorem LineBreak.length_le {lineBreak : List Char} (isBreak : LineBreak lineBreak) :
    lineBreak.length ≤ 2 := by
  cases isBreak <;> simp

theorem Shows.nil (text : List Char) : Shows text [] where
  head := by simp
  lineBreak lineBreak isBreak isPrefix := by cases isBreak <;> simp at isPrefix

theorem Shows.isPrefix {text other front mark : List Char} (shows : Shows text other)
    (short : mark.length ≤ front.length + 1) (isPrefix : mark <+: front ++ other) :
    mark <+: front ++ text := by
  rcases Nat.lt_or_ge front.length mark.length with longer | within
  · obtain ⟨back, rfl⟩ :=
      List.prefix_of_prefix_length_le (List.prefix_append front other) isPrefix longer.le
    rw [List.prefix_append_right_inj] at isPrefix ⊢
    cases back with
    | nil => exact List.nil_prefix
    | cons next back =>
        obtain rfl : back = [] := by simpa using short
        obtain ⟨behind, rfl⟩ := isPrefix
        cases text with
        | nil => simpa using shows.head next
        | cons first text => simpa [eq_comm] using shows.head next
  · exact (List.prefix_of_prefix_length_le isPrefix (List.prefix_append ..) within).trans
      (List.prefix_append ..)

theorem Shows.append {text other : List Char} (shows : Shows text other) (front : List Char) :
    Shows (front ++ text) (front ++ other) where
  head next isNext := by
    cases front with
    | nil => exact shows.head next isNext
    | cons first front => exact isNext
  lineBreak lineBreak isBreak isPrefix := by
    cases front with
    | nil => exact shows.lineBreak lineBreak isBreak isPrefix
    | cons first front =>
        have := isBreak.length_le
        exact shows.isPrefix (by rw [List.length_cons]; omega) isPrefix

/-- Behind the end of a span nothing is looked at. -/
theorem Shows.terminator {mode : PythonMode} {mark : List Char} (terminator : mode.Terminator mark)
    (rest other : List Char) : Shows (mark ++ rest) (mark ++ other) where
  head next isNext := by cases terminator <;> exact isNext
  lineBreak lineBreak isBreak isPrefix := by
    cases isBreak <;> cases terminator <;> simp_all

theorem Shows.ends {mode : PythonMode} {text other front : List Char} (shows : Shows text other)
    (nonempty : front ≠ []) (ends : mode.Ends (front ++ other)) : mode.Ends (front ++ text) := by
  obtain ⟨mark, terminator, isPrefix⟩ := ends
  have := terminator.length_le
  have := List.length_pos_iff.2 nonempty
  exact ⟨mark, terminator, shows.isPrefix (by omega) isPrefix⟩

theorem Piece.ne_nil {depth middle : Nat} {piece rest : List Char}
    (first : Piece depth piece rest middle) : piece ≠ [] := by
  cases first with
  | quotation opens closes => simp [opens.ne_nil]
  | _ => simp

theorem Piece.of_shows {depth middle : Nat} {piece text other : List Char}
    (shows : Shows text other) (first : Piece depth piece text middle) :
    Piece depth piece other middle := by
  cases first with
  | comment inside line ends =>
      exact .comment inside line fun next isNext => ends next (shows.head next isNext)
  | @quotation quote body text opens closes =>
      refine .quotation ?_ closes
      cases opens with
      | tripled isMark => exact .tripled isMark
      | single isMark other_ =>
          have nonempty : 1 ≤ body.length := closes.suffix.length_le
          exact .single isMark fun three => other_ (shows.isPrefix (by simpa using nonempty) three)
  | continuation isBreak => exact .continuation isBreak
  | backslash alone =>
      exact .backslash fun lineBreak isBreak isPrefix =>
        alone lineBreak isBreak (shows.lineBreak lineBreak isBreak isPrefix)
  | opening opens => exact .opening opens
  | closing closes => exact .closing closes
  | other unopened unclosed unquoted hash backslash =>
      exact .other unopened unclosed unquoted hash backslash

theorem Passes.of_shows {mode : PythonMode} {depth last : Nat} {passed text other : List Char}
    (shows : Shows text other) (passes : Passes mode depth passed text last) :
    Passes mode depth passed other last := by
  induction passes with
  | stay => exact .stay
  | @next depth middle last piece passed text goes first later ih =>
      have further := shows.append passed
      exact .next (fun outside ends => goes outside (further.ends first.ne_nil ends))
        (first.of_shows further) (ih shows)

/-! ## White space at the end -/

/-- A text without the white space at its end. -/
def solid (text : List Char) : List Char := text.rdropWhile Text.isWhiteSpace

theorem solid_isPrefix (text : List Char) : solid text <+: text :=
  List.rdropWhile_prefix _ _

theorem solid_append (front back : List Char) :
    solid (front ++ back) = if solid back = [] then solid front else front ++ solid back := by
  induction back using List.reverseRecOn with
  | nil => simp [solid]
  | append_singleton back character ih =>
      rw [solid, solid, ← List.append_assoc, List.rdropWhile_concat, List.rdropWhile_concat]
      split
      · exact ih
      · simp

theorem length_solid_append (front back : List Char) :
    (solid (front ++ back)).length =
      extend (solid front).length front.length (solid back).length := by
  rw [solid_append, extend]
  split <;> simp_all

theorem solid_singleton (character : Char) :
    (solid [character]).length = if Text.isWhiteSpace character then 0 else 1 := by
  rw [solid, List.rdropWhile_singleton]
  split <;> rfl

theorem solid_bracket {bracket : Char} (isBracket : IsOpening bracket ∨ IsClosing bracket) :
    solid [bracket] = [bracket] := by
  rcases isBracket with (rfl | rfl | rfl) | rfl | rfl | rfl <;> decide

/-- A quotation ends with its quote. -/
theorem solid_quotation {quote body rest : List Char} (opens : Opens quote (body ++ rest))
    (closes : Closes quote body) : solid (quote ++ body) = quote ++ body := by
  obtain ⟨mark, isMark, -, all⟩ := opens.exists_mark
  have dark : Text.isWhiteSpace mark ≠ true := by
    rcases isMark with rfl | rfl <;> decide
  obtain ⟨front, rfl⟩ := closes.suffix
  rw [solid, List.rdropWhile_eq_self_iff]
  intro nonempty
  rw [List.getLast_append_of_ne_nil _ (by simp [opens.ne_nil]),
    List.getLast_append_of_ne_nil _ opens.ne_nil, all _ (List.getLast_mem _)]
  exact dark

theorem solid_continuation {lineBreak : List Char} (isBreak : LineBreak lineBreak) :
    solid ('\\' :: lineBreak) = ['\\'] := by
  cases isBreak <;> decide

/-- What a piece adds to a span is a piece, unless all of it is white space. -/
theorem Piece.trimmed {depth middle : Nat} {piece rest : List Char}
    (first : Piece depth piece rest middle) :
    solid piece = [] ∧ depth = middle ∨ Piece depth (solid piece) [] middle := by
  have alone := first.of_shows (.nil rest)
  cases first with
  | @comment comment rest inside line ends =>
      have hash : solid ('#' :: comment) = '#' :: solid comment := by
        rw [← List.singleton_append, solid_append]
        split
        · next nothing => rw [nothing]; decide
        · rfl
      rw [hash]
      exact .inr (.comment inside (fun member => line ((solid_isPrefix comment).subset member))
        (by simp))
  | quotation opens closes =>
      rw [solid_quotation opens closes]
      exact .inr alone
  | @continuation lineBreak rest isBreak =>
      rw [solid_continuation isBreak]
      exact .inr (.backslash fun lineBreak isBreak isPrefix => by
        cases isBreak <;> simp at isPrefix)
  | backslash => exact .inr alone
  | opening opens =>
      rw [solid_bracket (.inl opens)]
      exact .inr alone
  | closing closes =>
      rw [solid_bracket (.inr closes)]
      exact .inr alone
  | @other character rest unopened unclosed unquoted hash backslash =>
      rw [solid, List.rdropWhile_singleton]
      split
      · exact .inl ⟨rfl, rfl⟩
      · exact .inr alone

theorem Passes.eq_of_nil {mode : PythonMode} {depth last : Nat} {rest : List Char}
    (passes : Passes mode depth [] rest last) : depth = last := by
  generalize nothing : ([] : List Char) = passed at passes
  cases passes with
  | stay => rfl
  | next goes first later => exact absurd (List.append_eq_nil_iff.1 nothing.symm).1 first.ne_nil

/-- A run still is one without the white space at its end and what is behind it. -/
theorem Passes.trimmed {mode : PythonMode} {depth last : Nat} {passed rest : List Char}
    (passes : Passes mode depth passed rest last) : Passes mode depth (solid passed) [] last := by
  induction passes with
  | stay => exact .stay
  | @next depth middle last piece passed rest goes first later ih =>
      rw [solid_append]
      split
      -- Where only white space follows, the piece is the last one to be kept, if it is kept at all.
      · next nothing =>
          obtain rfl : middle = last := (nothing ▸ ih).eq_of_nil
          rcases first.trimmed with ⟨blank, rfl⟩ | kept
          · rw [blank]
            exact .stay
          · have goes_ (outside : depth = 0) : ¬mode.Ends (solid piece ++ ([] ++ [])) := by
              rintro ⟨mark, terminator, isPrefix⟩
              rw [List.append_nil, List.append_nil] at isPrefix
              exact goes outside ⟨mark, terminator, isPrefix.trans
                ((solid_isPrefix piece).trans (List.prefix_append ..))⟩
            rw [← List.append_nil (solid piece)]
            exact .next goes_ kept .stay
      · have shows : Shows (passed ++ rest) (solid passed ++ []) := by
          obtain ⟨blank, split⟩ := solid_isPrefix passed
          have further := (Shows.nil (blank ++ rest)).append (solid passed)
          rwa [← List.append_assoc, split] at further
        refine .next (fun outside ends => goes outside ?_) (first.of_shows shows) ih
        exact shows.ends first.ne_nil ends

/-- A bracket that is closed adds to the span. -/
theorem Passes.solid_ne_nil {mode : PythonMode} {depth : Nat} {passed rest : List Char}
    (passes : Passes mode depth passed rest 0) (inside : 0 < depth) : solid passed ≠ [] :=
  fun nothing => inside.ne' (nothing ▸ passes.trimmed).eq_of_nil

end PythonScan

end NovelScript
