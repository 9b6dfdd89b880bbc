import NovelScript.Proofs.Coverage
import NovelScript.Proofs.Embedding
import NovelScript.Proofs.PythonOpenings

/-!
# Where python starts

Python tokens stand behind openings only, and every opening is followed by the scan of the text
behind it.  Both are carried along the lexemes of a script by what their context describes.
-/

namespace NovelScript

/-! ## Scans behind openings -/

namespace Lexeme

def IsPython (lexeme : Lexeme) : Prop :=
  lexeme.kind = .python ∨ lexeme.kind = .invalid ∧ lexeme.wrapped = some .python

theorem IsPython.layout {lexeme : Lexeme} (python : lexeme.IsPython) :
    lexeme.kind ≠ .newline ∧ lexeme.kind ≠ .whitespace := by
  rcases python with kind | ⟨kind, -⟩ <;> simp [kind]

theorem core_not_isPython (first : Char) (rest : List Char) : ¬(core first rest).1.IsPython := by
  obtain ⟨kind, wrapped⟩ := core_not_python first rest
  rintro (python | ⟨-, python⟩)
  · exact kind python
  · exact wrapped python

/-- The span of python at the start of a text, if there is any. -/
def span (mode : PythonMode) (body : List Char) : List Lexeme :=
  match PythonScan.ofText mode body with
  | .unterminated => [unclosed .python body]
  | .complete 0 => []
  | .complete (length + 1) => [{ kind := .python, text := body.take (length + 1) }]

theorem python_eq (mode : PythonMode) (text : List Char) :
    (python mode text).1 =
      blanks (text.takeWhile Text.isBlank) ++ span mode (text.dropWhile Text.isBlank) := by
  unfold python span
  dsimp only
  cases PythonScan.ofText mode (text.dropWhile Text.isBlank) with
  | unterminated => rfl
  | complete length => cases length <;> simp

theorem span_cases (mode : PythonMode) (body : List Char) :
    span mode body = [] ∨ ∃ lexeme, span mode body = [lexeme] ∧ lexeme.IsPython := by
  unfold span
  split
  · exact .inr ⟨_, rfl, .inr ⟨rfl, rfl⟩⟩
  · exact .inl rfl
  · exact .inr ⟨_, rfl, .inl rfl⟩

theorem python_kinds {mode : PythonMode} {text : List Char} {lexeme : Lexeme}
    (member : lexeme ∈ (python mode text).1) :
    lexeme.kind = .whitespace ∧ (∀ character ∈ lexeme.text, Text.isBlank character = true) ∨
      lexeme.IsPython := by
  rw [python_eq] at member
  rcases List.mem_append.1 member with blank | code
  · unfold blanks at blank
    split at blank
    · simp at blank
    · next first rest equal =>
        obtain rfl := List.mem_singleton.1 blank
        exact .inl ⟨rfl, fun character among => List.mem_takeWhile_imp (equal ▸ among)⟩
  · rcases span_cases mode (text.dropWhile Text.isBlank) with none | ⟨only, one, python⟩
    · simp [none] at code
    · rw [one, List.mem_singleton] at code
      exact .inr (code ▸ python)

theorem solid_dropWhile (text : List Char) :
    ∀ character ∈ (text.dropWhile Text.isBlank).head?, Text.isBlank character = false := by
  intro character first
  have stops := List.head?_dropWhile_not Text.isBlank text
  rw [Option.mem_def.1 first] at stops
  simpa using stops

/-- Where there is no span, the text behind the blanks is left as it was. -/
theorem rest_of_span_nil {mode : PythonMode} {text : List Char}
    (none : span mode (text.dropWhile Text.isBlank) = []) :
    (python mode text).2 = text.dropWhile Text.isBlank := by
  unfold span at none
  unfold python
  dsimp only
  split at none <;> simp_all

theorem fromContext_head {context : LineContext} {text : List Char} {lexeme : Lexeme}
    (first : lexeme ∈ (fromContext context text).head?) :
    ∃ character rest, text = character :: rest ∧ lexeme = (core character rest).1 := by
  cases text with
  | nil => simp [fromContext] at first
  | cons character rest =>
      rw [fromContext] at first
      split at first <;> cases first <;> exact ⟨character, rest, rfl, rfl⟩

/-- A text that starts with no blank has neither python nor a blank in front. -/
theorem head_of_solid {context : LineContext} {text : List Char}
    (solid : ∀ character ∈ text.head?, Text.isBlank character = false) :
    ∀ lexeme ∈ (fromContext context text).head?,
      ¬lexeme.IsPython ∧ lexeme.kind ≠ .whitespace := by
  intro lexeme first
  obtain ⟨character, rest, rfl, rfl⟩ := fromContext_head first
  refine ⟨core_not_isPython character rest, fun blank => ?_⟩
  have other := solid character rfl
  simp [isBlank_of_whitespace blank] at other

/-- Lexemes that start with blanks and the span scanned behind them; if there is no span, what
comes next is neither python nor blank. -/
def Embeds (mode : PythonMode) (lexemes : List Lexeme) : Prop :=
  let text := joined lexemes
  ∃ rest, lexemes =
      blanks (text.takeWhile Text.isBlank) ++ (span mode (text.dropWhile Text.isBlank) ++ rest) ∧
    (span mode (text.dropWhile Text.isBlank) = [] →
      ∀ lexeme ∈ rest.head?, ¬lexeme.IsPython ∧ lexeme.kind ≠ .whitespace)

/-- Behind an opening the blanks may be in front of the place already or still to come. -/
theorem embeds_of_span {mode : PythonMode} {text : List Char} {rest : List Lexeme}
    (solid : ∀ character ∈ text.head?, Text.isBlank character = false)
    (whole : joined (span mode text ++ rest) = text)
    (ends : span mode text = [] →
      ∀ lexeme ∈ rest.head?, ¬lexeme.IsPython ∧ lexeme.kind ≠ .whitespace) :
    Embeds mode (span mode text ++ rest) := by
  have stays : text.takeWhile Text.isBlank = [] ∧ text.dropWhile Text.isBlank = text := by
    cases text with
    | nil => simp
    | cons first rest => simp [solid first rfl]
  refine ⟨rest, ?_, ?_⟩
  · rw [whole, stays.1, stays.2]
    rfl
  · rw [whole, stays.2]
    exact ends

/-! ## Every place among the lexemes of a script -/

/-- What a place on a line owes to what the line has shown: python only behind an opening, and the
scan behind every opening. -/
def Opened (shown : List Kind) (lexemes : List Lexeme) : Prop :=
  (∀ lexeme ∈ lexemes.head?, lexeme.IsPython → ∃ mode, OpensPython shown mode) ∧
    ∀ mode, OpensPython shown mode → Embeds mode lexemes

/-- Every place among lexemes is `Opened`, with `done` in front of them. -/
def OpenedAll (done : List Kind) (lexemes : List Lexeme) : Prop :=
  ∀ before after, lexemes = before ++ after →
    Opened (Kind.shown (done ++ before.map kind)) after

theorem OpenedAll.nil {done : List Kind} (here : Opened (Kind.shown done) []) :
    OpenedAll done [] := by
  intro before after split
  obtain ⟨rfl, rfl⟩ := List.append_eq_nil_iff.1 split.symm
  simpa using here

theorem OpenedAll.cons {done : List Kind} {lexeme : Lexeme} {lexemes : List Lexeme}
    (here : Opened (Kind.shown done) (lexeme :: lexemes))
    (later : OpenedAll (done ++ [lexeme.kind]) lexemes) : OpenedAll done (lexeme :: lexemes) := by
  intro before after split
  cases before with
  | nil =>
      obtain rfl : lexeme :: lexemes = after := split
      simpa using here
  | cons first before =>
      obtain ⟨rfl, rest⟩ := List.cons.inj split
      simpa using later before after rest

/-- The lexemes of a scan, blanks in front included, behind an opening. -/
theorem openedAll_python {done : List Kind} {mode : PythonMode} {text : List Char}
    {rest : List Lexeme} (opening : OpensPython (Kind.shown done) mode)
    (only : ∀ other, OpensPython (Kind.shown done) other → other = mode)
    (whole : joined ((python mode text).1 ++ rest) = text)
    (ends : span mode (text.dropWhile Text.isBlank) = [] →
      ∀ lexeme ∈ rest.head?, ¬lexeme.IsPython ∧ lexeme.kind ≠ .whitespace)
    (later : ∀ behind, Kind.shown behind = Kind.shown done ++
      (span mode (text.dropWhile Text.isBlank)).map kind → OpenedAll behind rest) :
    OpenedAll done ((python mode text).1 ++ rest) := by
  let body := text.dropWhile Text.isBlank
  rw [python_eq, List.append_assoc] at whole ⊢
  have inside {behind : List Kind} (same : Kind.shown behind = Kind.shown done) :
      OpenedAll behind (span mode body ++ rest) := by
    have embeds : Embeds mode (span mode body ++ rest) := by
      refine embeds_of_span (solid_dropWhile text) ?_ ends
      rw [joined_append, joined_blanks] at whole
      exact List.append_cancel_left
        (whole.trans (List.takeWhile_append_dropWhile (p := Text.isBlank)).symm)
    rcases span_cases mode body with none | ⟨lexeme, one, python⟩
    · rw [none]
      exact later behind (by rw [same, none]; simp)
    · rw [one] at embeds ⊢
      refine .cons ⟨fun _ _ _ => ⟨mode, same ▸ opening⟩, fun other opened => ?_⟩ ?_
      · obtain rfl := only other (same ▸ opened)
        exact embeds
      · refine later _ ?_
        rw [Kind.shown_concat behind python.layout.1 python.layout.2, same, one]
        rfl
  have here : Opened (Kind.shown done)
      (blanks (text.takeWhile Text.isBlank) ++ (span mode body ++ rest)) := by
    refine ⟨fun _ _ _ => ⟨mode, opening⟩, fun other opened => ?_⟩
    obtain rfl := only other opened
    exact ⟨rest, by rw [whole], by rw [whole]; exact ends⟩
  unfold blanks at here ⊢
  split at here
  · exact inside rfl
  · exact .cons here (inside (Kind.shown_whitespace done))

/-- What a place among lexemes that are still to be read needs to be `Opened`: the context
describes the line so far, and a scan that this line opened is over. -/
structure Reaches (context : LineContext) (done : List Kind) (text : List Char) : Prop where
  describes : context.Describes (Kind.shown done)
  bare : Kind.shown done = [.comment] →
    ∀ character ∈ text.head?, character = '\r' ∨ character = '\n'
  scanned : ∀ mode, OpensPython (Kind.shown done) mode →
    span mode text = [] ∧ ∀ character ∈ text.head?, Text.isBlank character = false

namespace Reaches

variable {context : LineContext} {done : List Kind} {text : List Char}

theorem opened (reaches : Reaches context done text) :
    Opened (Kind.shown done) (fromContext context text) := by
  refine ⟨fun lexeme first python => ?_, fun mode opens => ?_⟩
  · obtain ⟨character, rest, -, rfl⟩ := fromContext_head first
    exact absurd python (core_not_isPython character rest)
  · obtain ⟨none, solid⟩ := reaches.scanned mode opens
    have embeds : Embeds mode (span mode text ++ fromContext context text) :=
      embeds_of_span solid (by rw [none]; simp) fun _ => head_of_solid solid
    rwa [none] at embeds

/-- A newline or a blank keeps what a place needs. -/
theorem layout {first : Char} {rest : List Char}
    (reaches : Reaches context done (first :: rest)) {kind : Kind}
    (same : (core first rest).1.kind = kind) (layout : kind = .newline ∨ kind = .whitespace) :
    Reaches (context.next kind).1 (done ++ [kind]) (core first rest).2 := by
  rcases layout with rfl | rfl
  · have start : (context.next .newline).1 = .start := by cases context <;> rfl
    rw [start]
    refine ⟨?_, ?_, ?_⟩
    · rw [Kind.shown_newline]
      exact .inl rfl
    · simp
    · intro mode opens
      rw [Kind.shown_newline] at opens
      exact absurd rfl opens.ne_nil
  · have blank := isBlank_of_whitespace same
    refine ⟨?_, ?_, ?_⟩
    · rw [Kind.shown_whitespace]
      exact reaches.describes.whitespace
    · intro comment
      rw [Kind.shown_whitespace] at comment
      have break_ := reaches.bare comment first rfl
      rcases break_ with rfl | rfl <;> simp [Text.isBlank] at blank
    · intro mode opens
      rw [Kind.shown_whitespace] at opens
      have solid := (reaches.scanned mode opens).2 first rfl
      simp [blank] at solid

/-- Other core lexemes take the line one kind further. -/
theorem follows {first : Char} {rest : List Char}
    (reaches : Reaches context done (first :: rest)) {kind : Kind}
    (same : (core first rest).1.kind = kind) (newline : kind ≠ .newline)
    (blank : kind ≠ .whitespace) : context.Follows (Kind.shown done) kind := by
  refine reaches.describes.follows newline blank fun comment => ?_
  have break_ := reaches.bare comment first rfl
  rcases kind_of_break break_ rest with broken | invalid
  · exact absurd (same.symm.trans broken) newline
  · exact same.symm.trans invalid

/-- A core lexeme that opens no python. -/
theorem plain {first : Char} {rest : List Char} (reaches : Reaches context done (first :: rest))
    {following : LineContext}
    (step : context.next (core first rest).1.kind = (following, none)) :
    Reaches following (done ++ [(core first rest).1.kind]) (core first rest).2 := by
  have next : following = (context.next (core first rest).1.kind).1 := by rw [step]
  by_cases newline : (core first rest).1.kind = .newline
  · exact next ▸ reaches.layout rfl (.inl newline)
  by_cases blank : (core first rest).1.kind = .whitespace
  · exact next ▸ reaches.layout rfl (.inr blank)
  have follows := reaches.follows rfl newline blank
  refine ⟨?_, ?_, ?_⟩
  · rw [Kind.shown_concat done newline blank, next]
    exact follows.1
  · intro comment
    rw [Kind.shown_concat done newline blank] at comment
    simp only [List.append_eq_singleton_iff, List.cons.injEq, and_true, List.cons_ne_self,
      and_false, or_false] at comment
    exact rest_of_comment comment.2
  · intro mode opens
    rw [Kind.shown_concat done newline blank, follows.2, step] at opens
    cases opens

/-- A core lexeme that opens python, and the scan behind it. -/
theorem scan {first : Char} {rest : List Char} (reaches : Reaches context done (first :: rest))
    {following : LineContext} {mode : PythonMode}
    (step : context.next (core first rest).1.kind = (following, some mode))
    {behind : List Kind} (same : Kind.shown behind =
      Kind.shown (done ++ [(core first rest).1.kind]) ++
        (span mode ((core first rest).2.dropWhile Text.isBlank)).map kind) :
    Reaches following behind (python mode (core first rest).2).2 := by
  obtain ⟨⟨newline, blank, comment⟩, stays⟩ := LineContext.next_of_mode step
  have follows := reaches.follows rfl newline blank
  rw [LineContext.Follows, ← Kind.shown_concat done newline blank, step] at follows
  have uncommented : Kind.shown (done ++ [(core first rest).1.kind]) ≠ [.comment] := by
    rw [Kind.shown_concat done newline blank]
    intro only
    simp only [List.append_eq_singleton_iff, List.cons.injEq, and_true, and_false, or_false,
      reduceCtorEq] at only
    exact comment only.2
  rcases span_cases mode ((core first rest).2.dropWhile Text.isBlank) with
    none | ⟨lexeme, one, isPython⟩
  · rw [none, List.map_nil, List.append_nil] at same
    refine ⟨same ▸ follows.1, fun only => absurd (same ▸ only) uncommented, fun other opens => ?_⟩
    rw [same, follows.2] at opens
    cases opens
    rw [rest_of_span_nil none]
    exact ⟨none, solid_dropWhile _⟩
  · rw [one] at same
    have kind : lexeme.kind = .python ∨ lexeme.kind = .invalid := isPython.imp_right And.left
    have further := LineContext.Describes.follows follows.1 isPython.layout.1 isPython.layout.2
      fun only => absurd only uncommented
    rw [LineContext.Follows, stays lexeme.kind kind] at further
    refine ⟨same ▸ further.1, fun only => ?_, fun other opens => ?_⟩
    · rw [same] at only
      simp only [List.map_cons, List.map_nil, List.append_eq_singleton_iff, List.cons.injEq,
        and_true, and_false, or_false, reduceCtorEq] at only
      rcases kind with python | invalid <;> simp_all
    · rw [same] at opens
      cases (further.2 other).1 opens

end Reaches

theorem fromContext_openedAll {context : LineContext} {text : List Char} {done : List Kind}
    (reaches : Reaches context done text) : OpenedAll done (fromContext context text) := by
  have here := reaches.opened
  fun_induction fromContext context text generalizing done with
  | case1 => exact .nil here
  | case2 context first rest lexeme behind following step =>
      rename_i ih
      have later := reaches.plain step
      exact .cons here (ih later later.opened)
  | case3 context first rest lexeme behind following mode step =>
      rename_i ih
      obtain ⟨⟨newline, blank, -⟩, -⟩ := LineContext.next_of_mode step
      have follows := reaches.follows rfl newline blank
      rw [LineContext.Follows, ← Kind.shown_concat done newline blank] at follows
      have opening := (follows.2 mode).2 (congrArg Prod.snd step)
      refine .cons here (openedAll_python opening ?_ ?_ ?_ ?_)
      · intro other opens
        have opened := (follows.2 other).1 opens
        rw [show context.next (core first rest).1.kind = _ from step] at opened
        exact (Option.some.inj opened).symm
      · simp
      · intro none
        rw [rest_of_span_nil none]
        exact head_of_solid (solid_dropWhile _)
      · intro before same
        have later := reaches.scan step same
        exact ih later later.opened

end Lexeme

/-! ## Tokens -/

namespace Token

/-- Tokens that lie in `text` from `position` on: the first one that is no blank is what the scan
behind the blanks finds, or no python if it finds nothing. -/
def Embeds (mode : PythonMode) (position : Position) (text : List Char) (tokens : List Token) :
    Prop :=
  let start := position.after (text.takeWhile Text.isBlank)
  let body := text.dropWhile Text.isBlank
  let next? := tokens.find? (·.kind != .whitespace)
  match PythonScan.ofText mode body with
  | .unterminated =>
      next? = some
        { kind := .invalid, span := ⟨start, start.after body⟩, wrapped := some .python }
  | .complete 0 => ∀ token ∈ next?, token.isPython = false
  | .complete (length + 1) =>
      next? = some
        { kind := .python, span := ⟨start, start.after (body.take (length + 1))⟩ }

theorem place_split {position : Position} {lexemes : List Lexeme} {before after : List Token}
    (split : place position lexemes = before ++ after) :
    ∃ first second, lexemes = first ++ second ∧ before = place position first ∧
      after = place (position.after (Lexeme.joined first)) second := by
  induction before generalizing position lexemes with
  | nil => exact ⟨[], lexemes, rfl, rfl, split.symm⟩
  | cons token before ih =>
      cases lexemes with
      | nil => simp [place] at split
      | cons lexeme lexemes =>
          obtain ⟨rfl, rest⟩ := List.cons.inj split
          obtain ⟨first, second, rfl, rfl, rfl⟩ := ih rest
          exact ⟨lexeme :: first, second, rfl, rfl, by simp⟩

/-- Every token of a script lies on the text of its lexeme. -/
theorem exists_split_of_mem_ofText {source : List Char} {token : Token}
    (member : token ∈ ofText source) :
    ∃ first lexeme second, Lexeme.ofText source = first ++ lexeme :: second ∧
      source = Lexeme.joined first ++ (lexeme.text ++ Lexeme.joined second) ∧
      token = ⟨lexeme.kind, ⟨Position.origin.after (Lexeme.joined first),
        (Position.origin.after (Lexeme.joined first)).after lexeme.text⟩, lexeme.wrapped⟩ := by
  obtain ⟨before, after, split⟩ := List.append_of_mem member
  obtain ⟨first, second, lexemes, -, behind⟩ := place_split split
  cases second with
  | nil => simp [place] at behind
  | cons lexeme second =>
      obtain ⟨rfl, -⟩ := List.cons.inj behind
      refine ⟨first, lexeme, second, lexemes, ?_, rfl⟩
      rw [← Lexeme.joined_cons, ← Lexeme.joined_append, ← lexemes]
      exact (Lexeme.joined_ofText source).symm

private theorem place_find (position : Position) (text : List Char) (lexemes : List Lexeme) :
    (place position (Lexeme.blanks text ++ lexemes)).find? (·.kind != .whitespace) =
      (place (position.after text) lexemes).find? (·.kind != .whitespace) := by
  cases text with
  | nil => rfl
  | cons first rest => simp [Lexeme.blanks, place]

theorem embeds_place {mode : PythonMode} {lexemes : List Lexeme} (position : Position)
    (embeds : Lexeme.Embeds mode lexemes) :
    Embeds mode position (Lexeme.joined lexemes) (place position lexemes) := by
  obtain ⟨rest, equal, ends⟩ := embeds
  have found := place_find position ((Lexeme.joined lexemes).takeWhile Text.isBlank)
    (Lexeme.span mode ((Lexeme.joined lexemes).dropWhile Text.isBlank) ++ rest)
  rw [← equal] at found
  unfold Embeds
  unfold Lexeme.span at found ends
  dsimp only
  rw [found]
  split
  · simp [place, Lexeme.unclosed]
  · next scan =>
    rw [scan] at ends
    cases rest with
    | nil => simp [place]
    | cons lexeme rest =>
        obtain ⟨plain, solid⟩ := ends rfl lexeme rfl
        simp only [Lexeme.IsPython, not_or, not_and] at plain
        simpa [place, solid, isPython, plain.1] using plain.2
  · simp [place]

/-- Python tokens stand behind openings only, and behind every opening there is the scan of the
text that follows. -/
theorem ofText_opensPython {source : List Char} {before after : List Token}
    (split : ofText source = before ++ after) :
    (∀ token ∈ after.head?, token.isPython = true →
        ∃ mode, OpensPython (Kind.shown (before.map kind)) mode) ∧
      ∀ mode, OpensPython (Kind.shown (before.map kind)) mode →
        Embeds mode (Position.origin.after (TokenStream.reconstruct source before))
          (TokenStream.reconstruct source after) after := by
  obtain ⟨first, second, lexemes, rfl, rfl⟩ := place_split split
  have start : Lexeme.Reaches .start [] source :=
    ⟨.inl rfl, by simp, fun mode opens => absurd rfl opens.ne_nil⟩
  obtain ⟨behind, scanned⟩ := Lexeme.fromContext_openedAll start first second lexemes
  have source_ : source = Lexeme.joined first ++ Lexeme.joined second := by
    rw [← Lexeme.joined_append, ← lexemes]
    exact (Lexeme.joined_ofText source).symm
  have texts : TokenStream.reconstruct source (place .origin first) = Lexeme.joined first ∧
      TokenStream.reconstruct source
        (place (Position.origin.after (Lexeme.joined first)) second) = Lexeme.joined second := by
    have nonempty : ∀ lexeme ∈ second, lexeme.text ≠ [] := by
      intro lexeme member
      have inside : lexeme ∈ Lexeme.fromContext .start source := by
        rw [show Lexeme.fromContext .start source = first ++ second from lexemes]
        exact List.mem_append_right first member
      exact Lexeme.fromContext_text_ne_nil inside
    have last := (place_covers (Lexeme.joined first) second nonempty).2.2
    rw [← source_] at last
    have whole : TokenStream.reconstruct source (place .origin first) ++
        TokenStream.reconstruct source
          (place (Position.origin.after (Lexeme.joined first)) second) = source := by
      have all := reconstruct_ofText source
      rwa [split, TokenStream.reconstruct, List.flatMap_append] at all
    rw [last] at whole
    exact ⟨List.append_cancel_right (whole.trans source_), last⟩
  simp only [place_kinds, texts]
  simp only [List.nil_append] at behind scanned
  refine ⟨?_, fun mode opens => embeds_place _ (scanned mode opens)⟩
  intro token next python
  cases second with
  | nil => simp [place] at next
  | cons lexeme second =>
      cases next
      refine behind lexeme rfl ?_
      simpa [isPython, Lexeme.IsPython] using python

private def indexed : List Char := "define a[ 0] = (\n1) # c".toList

/-- Behind the bracket of a definition the subscript is scanned, blanks left out. -/
theorem indexed_opensPython :
    ofText indexed = (ofText indexed).take 4 ++ (ofText indexed).drop 4 ∧
      (∀ token ∈ ((ofText indexed).drop 4).head?, token.isPython = true → ∃ mode,
        OpensPython (Kind.shown (((ofText indexed).take 4).map kind)) mode) ∧
      OpensPython (Kind.shown (((ofText indexed).take 4).map kind)) .index ∧
      Embeds .index (Position.origin.after "define a[".toList) " 0] = (\n1) # c".toList
        ((ofText indexed).drop 4) := by
  have split : ofText indexed = (ofText indexed).take 4 ++ (ofText indexed).drop 4 :=
    (List.take_append_drop 4 _).symm
  have shown : Kind.shown (((ofText indexed).take 4).map kind) =
      .keyword .define :: ([.identifier] ++ [.punctuation .openBracket]) := by decide +kernel
  have opens : OpensPython (Kind.shown (((ofText indexed).take 4).map kind)) .index := by
    rw [shown]
    exact .subscript (by simp) (by decide)
  have opened := ofText_opensPython split
  have front : TokenStream.reconstruct indexed ((ofText indexed).take 4) =
      "define a[".toList := by decide +kernel
  have behind : TokenStream.reconstruct indexed ((ofText indexed).drop 4) =
      " 0] = (\n1) # c".toList := by decide +kernel
  refine ⟨split, opened.1, opens, ?_⟩
  rw [← front, ← behind]
  exact opened.2 .index opens

end Token

end NovelScript
