import NovelScript.Proofs.Leaves
import NovelScript.Proofs.TokenTexts

/-!
# Faithful leaves

What a leaf of a syntax tree says is what the script has under its span.  A dotted name may have
blanks between its parts, which it leaves out, and the priority of a binding may stand for no text.
-/

namespace NovelScript

open Text

variable {source : List Char}

/-! ## Texts of leaves -/

def Identifier.Faithful (source : List Char) (name : Identifier) : Prop :=
  name.span.Spells source name.name.toList

/-- A literal of the sort of its token, or of the sort that its token was not closed in. -/
structure Literal.Faithful (source : List Char) (value : Literal) : Prop where
  text : value.span.Spells source value.text.toList
  sort : ∃ token ∈ Token.ofText source, token.span = value.span ∧
    (token.kind = .literal value.kind ∨ value.kind = .string ∧ token.kind = .invalid ∧
      token.wrapped = some (.literal .string))

/-- A dotted name, as it is written but for its blanks: a name that is not reserved, with names that
may be for its attributes. -/
structure Reference.Faithful (source : List Char) (reference : Reference) : Prop where
  text : ∃ text, reference.span.Spells source text ∧ reference.name.toList = unblanked text
  path : ∃ (first : List Char) (attributes : List (List Char)),
    reference.name.toList = first ++ attributes.flatMap ('.' :: ·) ∧
      (IsWord first ∧ Lexeme.wordKind first = .identifier) ∧
      ∀ word ∈ attributes, IsWord word

/-- Python is open if it runs to the end of its script in an invalid token. -/
structure PythonCode.Faithful (source : List Char) (code : PythonCode) : Prop where
  text : code.span.Spells source code.source.toList
  ended : ∃ token ∈ Token.ofText source, token.span = code.span ∧
    token.hasKind .python = true ∧ (code.terminated = false ↔
      code.span.stop.offset = byteLength source ∧ token.kind = .invalid)

def Leaf.Faithful (source : List Char) : Leaf → Prop
  | .identifier name => name.Faithful source
  | .literal value => value.Faithful source
  | .reference name => name.Faithful source
  | .python code => code.Faithful source

/-- A priority that is not written is zero, right behind the keyword of its statement. -/
structure Statement.Faithful (source : List Char) (statement : Statement) : Prop where
  leaves : ∀ leaf ∈ statement.leaves, leaf.Faithful source
  priority : ∀ priority ∈ statement.priority?, priority.kind = .integer ∧
    (priority.Faithful source ∨ ∃ head ∈ Token.ofText source, head.kind = statement.opener ∧
      head.start = statement.span.start ∧ priority.text = "0" ∧ priority.span = .emptyAt head.stop)

/-! ## Literals and python -/

theorem Literal.faithful_of_token {token : Token} {sort : LiteralKind}
    (member : token ∈ Token.ofText source) (has : token.hasKind (.literal sort) = true) :
    Literal.Faithful source ⟨sort, token.value source, token.span⟩ := by
  refine ⟨Token.spells_of_mem member, token, member, rfl, ?_⟩
  have wellFormed := Token.wellFormed_of_mem_ofText member
  by_cases string : sort = .string
  · subst string
    exact (wellFormed.hasKind_string_iff.1 has).imp_right fun open_ => ⟨rfl, open_⟩
  · exact .inl ((wellFormed.hasKind_iff (by simpa using string) (by simp)).1 has)

/-- A token that was not closed runs to the end of its script. -/
theorem Token.stop_of_wrapped {token : Token} (member : token ∈ ofText source)
    (wraps : token.wrapped ≠ none) : token.stop.offset = byteLength source := by
  obtain ⟨closed, last, tokens, all, open_⟩ := ofText_closedButLast source
  rw [tokens] at member
  rcases List.mem_append.1 member with inside | final
  · exact absurd (all token inside).wraps wraps
  · exact (open_ token (by simpa using final)).ends

theorem PythonCode.faithful_of_token {token : Token} (member : token ∈ Token.ofText source)
    (has : token.hasKind .python = true) :
    PythonCode.Faithful source ⟨token.value source, !token.isInvalid, token.span⟩ := by
  refine ⟨Token.spells_of_mem member, token, member, rfl, has, ?_⟩
  have ends (invalid : token.kind = .invalid) : token.stop.offset = byteLength source := by
    refine Token.stop_of_wrapped member ?_
    have wraps := (Token.wellFormed_of_mem_ofText member).hasKind_python_iff.1 has
    simp [invalid] at wraps
    simp [wraps]
  simp only [Token.isInvalid, Bool.not_eq_false', beq_iff_eq]
  exact ⟨fun invalid => ⟨ends invalid, invalid⟩, And.right⟩

/-! ## References -/

namespace Reference

variable {reference : Reference} {first : Token} {segments : List (Token × Token)}

theorem tokens_getLast? (first : Token) (segments : List (Token × Token)) :
    (tokens first segments).getLast? = some ((segments.getLast?.map Prod.snd).getD first) := by
  rcases List.eq_nil_or_concat segments with rfl | ⟨inner, last, rfl⟩
  · rfl
  · simp [tokens, List.getLast?_cons, List.getLast?_append]

theorem path_toList (name : String) (segments : List (Token × Token)) :
    (path source name segments).toList =
      name.toList ++ segments.flatMap fun segment => '.' :: (segment.2.value source).toList := by
  induction segments generalizing name with
  | nil => simp [path]
  | cons segment rest ih => exact (ih (name ++ "." ++ segment.2.value source)).trans (by simp)

theorem MadeOf.head_spelled (made : reference.MadeOf source first segments) :
    first.kind = .identifier ∧ IsWord (first.value source).toList ∧
      Lexeme.wordKind (first.value source).toList = .identifier := by
  have kind : first.kind = .identifier :=
    ((Token.wellFormed_of_mem_ofText made.first_mem).hasKind_iff (by simp) (by simp)).1 made.head
  obtain ⟨word, same⟩ := (Token.spelled_of_mem made.first_mem).name (.inl kind)
  exact ⟨kind, word, same.trans kind⟩

theorem MadeOf.attribute_spelled (made : reference.MadeOf source first segments)
    {segment : Token × Token} (member : segment ∈ segments) :
    (segment.1.kind = .punctuation .dot ∧ (segment.1.value source).toList = ['.']) ∧
      (segment.2.kind = .identifier ∨ ∃ word, segment.2.kind = .keyword word) ∧
      IsWord (segment.2.value source).toList := by
  obtain ⟨dot, name⟩ := made.dotted segment member
  obtain ⟨dot_, name_⟩ := made.segment_mem member
  have mark := ((Token.wellFormed_of_mem_ofText dot_).hasKind_iff (by simp) (by simp)).1 dot
  have kind := (Token.wellFormed_of_mem_ofText name_).isName_iff.1 name
  exact ⟨⟨mark, (Token.spelled_of_mem dot_).mark .dot mark⟩, kind,
    ((Token.spelled_of_mem name_).name kind).1⟩

theorem MadeOf.plain (made : reference.MadeOf source first segments) :
    ∀ token ∈ tokens first segments, token.kind ≠ .newline ∧ token.kind ≠ .invalid := by
  intro token member
  rcases List.mem_cons.1 member with rfl | later
  · simp [made.head_spelled.1]
  · obtain ⟨segment, among, own⟩ := List.mem_flatMap.1 later
    obtain ⟨⟨dot, -⟩, name, -⟩ := made.attribute_spelled among
    simp only [List.mem_cons, List.not_mem_nil, or_false] at own
    rcases own with rfl | rfl
    · simp [dot]
    · rcases name with kind | ⟨word, kind⟩ <;> simp [kind]

/-- The tokens of a dotted name say the name. -/
theorem MadeOf.unblanked_tokens (made : reference.MadeOf source first segments) :
    ((tokens first segments).flatMap fun token => unblanked (token.value source).toList) =
      reference.name.toList := by
  have attributes : (segments.flatMap fun segment =>
        unblanked (segment.1.value source).toList ++ unblanked (segment.2.value source).toList) =
      segments.flatMap fun segment => '.' :: (segment.2.value source).toList := by
    refine List.flatMap_congr fun segment member => ?_
    obtain ⟨⟨-, dot⟩, -, word⟩ := made.attribute_spelled member
    rw [dot, word.unblanked_eq]
    rfl
  rw [made.name, path_toList, ← attributes, tokens, List.flatMap_cons, List.flatMap_assoc,
    made.head_spelled.2.1.unblanked_eq]
  simp

theorem MadeOf.faithful (made : reference.MadeOf source first segments) :
    reference.Faithful source := by
  refine ⟨?_, (first.value source).toList,
    segments.map fun segment => (segment.2.value source).toList, ?_, made.head_spelled.2, ?_⟩
  · obtain ⟨before, after, visible⟩ := made.visible
    rw [List.append_assoc] at visible
    obtain ⟨text, stop, spells, solid⟩ :=
      Token.visible_run visible.symm rfl (tokens_getLast? first segments) made.plain
    refine ⟨text, ?_, (solid.trans made.unblanked_tokens).symm⟩
    rwa [made.span, stop, Position.after_max, ← stop]
  · rw [made.name, path_toList, List.flatMap_map]
  · simp only [List.forall_mem_map]
    exact fun segment member => (made.attribute_spelled member).2.2

end Reference

/-! ## Documents -/

theorem Leaf.IsRead.faithful {leaf : Leaf} (read : leaf.IsRead source) : leaf.Faithful source := by
  cases leaf with
  | identifier name =>
      obtain ⟨token, member, -, rfl⟩ := read
      exact Token.spells_of_mem member
  | literal value =>
      obtain ⟨token, member, has, same⟩ := read
      rw [same]
      exact Literal.faithful_of_token member has
  | reference name =>
      obtain ⟨first, segments, made⟩ := read
      exact made.faithful
  | python code =>
      obtain ⟨token, member, has, rfl⟩ := read
      exact PythonCode.faithful_of_token member has

namespace Document

/-- Whatever a document was read from, its statements say what the script says where they stand. -/
theorem ofText_faithful (source : List Char) :
    ∀ node ∈ (ofText source).1.nodes, node.2.Faithful source := by
  intro node member
  rw [← lineage_nodes] at member
  obtain ⟨site, among, rfl⟩ := List.mem_map.1 member
  have read := ofText_isRead among
  refine ⟨fun leaf inside => (read.leaves leaf inside).faithful, fun priority own => ?_⟩
  refine ⟨read.integer priority own, (read.priority priority own).imp ?_ ?_⟩
  · exact Leaf.IsRead.faithful
  · rintro ⟨head, inside, kind, starts, rfl⟩
    exact ⟨head, inside, kind, starts, rfl, rfl⟩

private def spaced : List Char := "define a . b = (x".toList

/-- A name with blanks around its dot, python that is not closed, and a priority that is not
written. -/
theorem spaced_faithful : ∃ node ∈ (ofText spaced).1.nodes, node.2.Faithful spaced ∧
    node.2.leaves = [.reference ⟨"a.b", ⟨⟨0, 7, 7⟩, ⟨0, 12, 12⟩⟩⟩,
      .python ⟨"(x", false, ⟨⟨0, 15, 15⟩, ⟨0, 17, 17⟩⟩⟩] ∧
    node.2.priority? = some ⟨.integer, "0", .emptyAt ⟨0, 6, 6⟩⟩ := by
  have texts : ((ofText spaced).1.nodes.map fun node => (node.2.leaves, node.2.priority?)) =
      [([.reference ⟨"a.b", ⟨⟨0, 7, 7⟩, ⟨0, 12, 12⟩⟩⟩,
        .python ⟨"(x", false, ⟨⟨0, 15, 15⟩, ⟨0, 17, 17⟩⟩⟩],
        some ⟨.integer, "0", .emptyAt ⟨0, 6, 6⟩⟩)] := by decide +kernel
  obtain ⟨node, nodes, same⟩ := List.map_eq_singleton_iff.1 texts
  obtain ⟨leaves, priority⟩ := Prod.mk.inj same
  have member : node ∈ (ofText spaced).1.nodes := by simp [nodes]
  exact ⟨node, member, ofText_faithful spaced node member, leaves, priority⟩

end Document

end NovelScript
