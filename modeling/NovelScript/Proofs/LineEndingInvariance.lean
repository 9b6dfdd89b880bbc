import NovelScript.Proofs.CorrespondingAnalyses
import NovelScript.Proofs.LineEndings
import NovelScript.Proofs.PythonContexts

/-!
# Line endings make no difference

A script with returns in front of its newlines corresponds to the script without them, line by line
and column by column.  So its tokens and its diagnostics are the same but for byte offsets.
-/

namespace NovelScript

open Text

/-! ## Positions of one text -/

namespace Position

/-- A position that the characters of a text lead to. -/
def Reached (source : List Char) (position : Position) : Prop :=
  ∃ before, before <+: source ∧ position = origin.after before

/-- Returns move a later position at least as far as an earlier one. -/
theorem crlf_compare {source : List Char} {first second : Position} (one : first.Reached source)
    (two : second.Reached source) : first.crlf.compare second.crlf = first.compare second := by
  -- Of two positions of one text, one is met on the way to the other.
  have ordered {first second : List Char} (longer : first <+: second) :
      (origin.after first).crlf.compare (origin.after second).crlf =
          (origin.after first).compare (origin.after second) ∧
        (origin.after second).crlf.compare (origin.after first).crlf =
          (origin.after second).compare (origin.after first) := by
    obtain ⟨rest, rfl⟩ := longer
    rw [after_append]
    generalize origin.after first = position
    cases rest with
    | nil => simp [compare_self]
    | cons character rest =>
        have further : position.offset < (position.after (character :: rest)).offset := by
          have := character.utf8Size_pos
          simp only [after_offset, byteLength_cons]
          omega
        have lower : position.line ≤ (position.after (character :: rest)).line := by
          rw [after_line]
          exact Nat.le_add_right ..
        have moved : position.crlf.offset < (position.after (character :: rest)).crlf.offset := by
          simp only [crlf]
          omega
        have plain := compare_of_offset_lt further
        have returned := compare_of_offset_lt moved
        exact ⟨returned.1.trans plain.1.symm, returned.2.trans plain.2.symm⟩
  obtain ⟨before, inside, rfl⟩ := one
  obtain ⟨before', inside', rfl⟩ := two
  rcases List.prefix_or_prefix_of_prefix inside inside' with longer | longer
  · exact (ordered longer).1
  · exact (ordered longer).2

end Position

namespace Correspondence

/-- A script and the one with returns: the same lines and columns, and returns in the texts. -/
def returned (source : List Char) : Correspondence where
  position first second := first.Reached source ∧ second = first.crlf
  text first second := second = String.ofList (Text.crlf first.toList)
  column := by
    rintro first second ⟨-, rfl⟩
    rfl
  compare := by
    rintro first second later later' ⟨one, rfl⟩ ⟨two, rfl⟩
    exact (Position.crlf_compare one two).symm
  zero := by decide +kernel

theorem returned_keepsLines (source : List Char) : (returned source).KeepsLines where
  origin := ⟨⟨[], List.nil_prefix, rfl⟩, rfl⟩
  line := by
    rintro first second ⟨-, rfl⟩
    rfl

end Correspondence

/-! ## Names and numbers -/

/-- The kinds of names, and of literals other than strings. -/
def Kind.IsFlat : Kind → Prop
  | .identifier | .keyword _ => True
  | .literal sort => sort ≠ .string
  | _ => False

namespace Lexeme

theorem core_unbroken {first : Char} {rest : List Char} (flat : (core first rest).1.kind.IsFlat) :
    Unbroken (core first rest).1.text := by
  have solid : isBreak first = false := by
    refine eq_false_of_ne_true fun breaks => ?_
    simp only [isBreak, Bool.or_eq_true, decide_eq_true_eq] at breaks
    rcases kind_of_break breaks rest with kind | kind <;> simp [kind, Kind.IsFlat] at flat
  have plain : opensString first = false := by
    refine eq_false_of_ne_true fun string => ?_
    obtain ⟨quote, -, equal⟩ := classify_of_opensString string rest
    have kind : (core first rest).1.kind = .literal .string ∨
        (core first rest).1.kind = .invalid := by
      simp only [core, equal]
      split
      · exact .inl rfl
      · exact .inr rfl
    rcases kind with kind | kind <;> simp [kind, Kind.IsFlat] at flat
  obtain ⟨line, tail, rfl, unbroken, atBreak⟩ := exists_line rest
  have within := classify_le first line
  have taken := classify_atBreak solid plain line atBreak
  intro character member
  simp only [core, taken, List.take_append_of_le_length within, List.mem_cons] at member
  rcases member with rfl | inside
  · exact solid
  · exact unbroken character (List.mem_of_mem_take inside)

theorem python_not_flat {mode : PythonMode} {text : List Char} {lexeme : Lexeme}
    (member : lexeme ∈ (python mode text).1) : ¬lexeme.kind.IsFlat := by
  rcases python_kinds member with ⟨kind, -⟩ | kind | ⟨kind, -⟩ <;> simp [kind, Kind.IsFlat]

/-- A name stays on its line, and so does a number. -/
theorem fromContext_unbroken {context : LineContext} {text : List Char} {lexeme : Lexeme}
    (member : lexeme ∈ fromContext context text) (flat : lexeme.kind.IsFlat) :
    Unbroken lexeme.text := by
  fun_induction fromContext context text with
  | case1 => simp at member
  | case2 context first rest head behind following step ih =>
      rcases List.mem_cons.1 member with rfl | later
      · exact core_unbroken flat
      · exact ih later
  | case3 context first rest head behind following mode step ih =>
      rcases List.mem_cons.1 member with rfl | later
      · exact core_unbroken flat
      · rcases List.mem_append.1 later with embedded | later
        · exact absurd flat (python_not_flat embedded)
        · exact ih later

end Lexeme

/-! ## Tokens and analyses -/

namespace Token

theorem WellFormed.isFlat_of_isName {token : Token} (wellFormed : token.WellFormed)
    (name : token.isName = true) : token.kind.IsFlat := by
  rcases wellFormed.isName_iff.1 name with kind | ⟨word, kind⟩ <;> simp [kind, Kind.IsFlat]

theorem readable_crlf {source : List Char} (plain : '\r' ∉ source) :
    List.Forall₂ ((Correspondence.returned source).Readable source (Text.crlf source))
      (ofText source) (ofText (Text.crlf source)) := by
  rw [ofText_crlf plain, List.forall₂_map_right_iff, List.forall₂_same]
  intro token member
  have wellFormed := wellFormed_of_mem_ofText member
  obtain ⟨first, lexeme, second, lexemes, source_, rfl⟩ := exists_split_of_mem_ofText member
  have text := Span.textIn_after (Lexeme.joined first) lexeme.text (Lexeme.joined second)
  have returned := Span.textIn_after (Text.crlf (Lexeme.joined first)) (Text.crlf lexeme.text)
    (Text.crlf (Lexeme.joined second))
  rw [← Text.crlf_append, ← Text.crlf_append, ← source_,
    show Position.origin.after (Text.crlf (Lexeme.joined first)) =
      (Position.origin.after (Lexeme.joined first)).crlf from Position.crlf_after .origin _,
    Position.crlf_after] at returned
  rw [← source_] at text
  refine ⟨⟨rfl, rfl, ⟨⟨?_, rfl⟩, ⟨?_, rfl⟩⟩⟩, ?_, fun name => ?_⟩
  · exact ⟨Lexeme.joined first, source_ ▸ List.prefix_append .., rfl⟩
  · refine ⟨Lexeme.joined first ++ lexeme.text, ?_, (Position.after_append ..).symm⟩
    rw [source_, ← List.append_assoc]
    exact List.prefix_append ..
  · refine congrArg String.ofList (returned.trans ?_)
    rw [value, text, String.toList_ofList]
  · have unbroken := Lexeme.fromContext_unbroken (lexemes ▸ List.mem_append_right first
      List.mem_cons_self) (wellFormed.isFlat_of_isName name)
    rw [unbroken.crlf] at returned
    exact congrArg String.ofList (text.trans returned.symm)

end Token

/-- The lines and columns between which a span lies. -/
def Span.lineColumns (span : Span) : (Nat × Nat) × (Nat × Nat) :=
  ((span.start.line, span.start.column), (span.stop.line, span.stop.column))

namespace Analysis

/-- With returns in front of its newlines a script has the same tokens and the same diagnostics, on
the same lines and columns. -/
theorem ofText_crlf_lineColumns {source : List Char} (plain : '\r' ∉ source)
    (options : AnalysisOptions) :
    (Token.ofText (Text.crlf source)).map
        (fun token => (token.kind, token.wrapped, token.span.lineColumns)) =
      (Token.ofText source).map
        (fun token => (token.kind, token.wrapped, token.span.lineColumns)) ∧
    (ofText (Text.crlf source) options).diagnostics.map
        (fun diagnostic => (diagnostic.severity, diagnostic.code, diagnostic.message,
          diagnostic.span.lineColumns)) =
      (ofText source options).diagnostics.map
        (fun diagnostic => (diagnostic.severity, diagnostic.code, diagnostic.message,
          diagnostic.span.lineColumns)) := by
  have readable := Token.readable_crlf plain
  have keeps := Correspondence.returned_keepsLines source
  have diagnostics := Correspondence.diagnostics_correspond keeps readable options
  have spans {first second : Span}
      (same : (Correspondence.returned source).Spans first second) :
      second.lineColumns = first.lineColumns := by
    unfold Span.lineColumns
    rw [same.start.2, same.stop.2]
    rfl
  constructor
  · rw [Token.ofText_crlf plain, List.map_map]
    rfl
  · generalize (ofText source options).diagnostics = first at diagnostics
    generalize (ofText (Text.crlf source) options).diagnostics = second at diagnostics
    induction diagnostics with
    | nil => rfl
    | cons here _ ih =>
        rw [List.map_cons, List.map_cons, ih, here.severity, here.code, here.message,
          spans here.span]

private def folded : List Char :=
  "label a:\n  'b\n\n' \n    $ c = (1, # d\n  e) \\\n  + f\n  jump g 'h".toList

/-- A string, a comment and brackets run over line ends here; the last line jumps to an unknown
label and leaves a string open. -/
theorem folded_crlf_lineColumns :
    '\r' ∉ folded ∧
    (Token.ofText (Text.crlf folded)).map
        (fun token => (token.kind, token.wrapped, token.span.lineColumns)) =
      (Token.ofText folded).map
        (fun token => (token.kind, token.wrapped, token.span.lineColumns)) ∧
    (ofText (Text.crlf folded) {}).diagnostics.map
        (fun diagnostic => (diagnostic.severity, diagnostic.code, diagnostic.message,
          diagnostic.span.lineColumns)) =
      (ofText folded {}).diagnostics.map
        (fun diagnostic => (diagnostic.severity, diagnostic.code, diagnostic.message,
          diagnostic.span.lineColumns)) := by
  have plain : '\r' ∉ folded := by decide +kernel
  exact ⟨plain, ofText_crlf_lineColumns plain {}⟩

end Analysis

end NovelScript
