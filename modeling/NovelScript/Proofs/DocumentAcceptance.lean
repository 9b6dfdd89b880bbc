import NovelScript.Proofs.Indentation
import NovelScript.Proofs.StatementAcceptance

/-!
# Documents without errors

A script is read without an error exactly if each of its statement lines is a word of the language,
at the levels that the labels around it leave, and no label stands inside as many as there may be.
-/

namespace NovelScript

namespace Document

open Grammar Line

theorem visited_of_mem {source : List Char} {site : Site}
    (member : site ∈ Site.ofLines (Line.ofTokens (Token.visible source))) :
    ∃ node ∈ (ofText source).1.lineage,
      Visited (block none (Cursor.ofTokens source (Token.ofText source))).2 site node := by
  obtain ⟨place, inside, equal⟩ := List.getElem_of_mem member
  have visits := List.forall₂_iff_get.1 ((ofText_block source).visits [] rfl)
  have visited := visits.2 place inside (visits.1 ▸ inside)
  rw [List.get_eq_getElem, show (Site.among [] [] _)[place] = _ from equal] at visited
  exact ⟨_, List.get_mem .., visited⟩

theorem visited_of_node {source : List Char} {node : List Statement × Statement}
    (member : node ∈ (ofText source).1.lineage) :
    ∃ site ∈ Site.ofLines (Line.ofTokens (Token.visible source)),
      Visited (block none (Cursor.ofTokens source (Token.ofText source))).2 site node := by
  obtain ⟨place, inside, rfl⟩ := List.getElem_of_mem member
  have visits := List.forall₂_iff_get.1 ((ofText_block source).visits [] rfl)
  exact ⟨_, List.get_mem .., visits.2 place (visits.1 ▸ inside) inside⟩

/-- Without errors no line is capped: the label that caps it is a statement line itself. -/
theorem not_capped {source : List Char} (clean : (ofText source).2 = []) (before : List Line)
    (line : Line) (after : List Line)
    (split : Line.ofTokens (Token.visible source) = before ++ line :: after) : ¬Capped before line := by
  rintro ⟨outer, label, between, rfl, isLabel, -, full⟩
  have head : label.IsHead := by
    rw [IsHead, show label.first.kind = _ from isLabel]
    simp [openers]
  -- The label is not capped itself, so it was read, and its body was refused with an error.
  have found : (⟨enclosing outer label, label⟩ : Site) ∈
      Site.ofLines (Line.ofTokens (Token.visible source)) := by
    refine Site.mem_ofLines.2 ⟨outer, between ++ line :: after, by simp [split], rfl, head, ?_⟩
    rw [capped_iff, full]
    exact Nat.lt_irrefl _
  obtain ⟨node, -, visited⟩ := visited_of_mem found
  exact visited.capped isLabel full clean

/-- Where no error is left, none was recorded on any line. -/
theorem visited_clean {last : Cursor} {site : Site} {node : List Statement × Statement}
    (visited : Visited last site node) (clean : last.errors = []) :
    ∃ cursor tail, cursor.AtLine site.line tail ∧ cursor.source = last.source ∧
      cursor.depth = site.around.length ∧
      (ownLine cursor).1.map Statement.own = some node.2.own ∧
      (ownLine cursor).2.errors = cursor.errors := by
  obtain ⟨cursor, tail, at_, source, depth, own, errors⟩ := visited.read
  rw [clean, List.prefix_nil] at errors
  obtain ⟨-, leads⟩ := ownLine_lands at_
  have before := leads.errors
  rw [errors, List.prefix_nil] at before
  exact ⟨cursor, tail, at_, source, depth, own, errors.trans before.symm⟩

private theorem derives_of_clean {source : List Char} (clean : (ofText source).2 = [])
    {before after : List Line} {line : Line}
    (split : Line.ofTokens (Token.visible source) = before ++ line :: after) (head : line.IsHead) :
    line.tokens ∈ Words.statement (maxNesting - (enclosing before line).length) ∧
      (line.IsLabel → (enclosing before line).length < maxNesting) := by
  have open_ := not_capped clean before line after split
  have found : (⟨enclosing before line, line⟩ : Site) ∈
      Site.ofLines (Line.ofTokens (Token.visible source)) :=
    Site.mem_ofLines.2 ⟨before, after, split, rfl, head, open_⟩
  obtain ⟨node, -, visited⟩ := visited_of_mem found
  obtain ⟨cursor, tail, at_, -, depth, -, errors⟩ := visited_clean visited clean
  refine ⟨?_, fun isLabel => ?_⟩
  · have derives := (ownLine_clean_iff at_ head).1 errors
    rwa [Cursor.levels, depth] at derives
  · rw [capped_iff] at open_
    have other := mt (visited.capped isLabel) (not_not.2 clean)
    exact Nat.lt_of_le_of_ne (Nat.not_lt.1 open_) other

private theorem clean_of_derives {source : List Char}
    (derives : ∀ before line after,
      Line.ofTokens (Token.visible source) = before ++ line :: after → line.IsHead →
        line.tokens ∈ Words.statement (maxNesting - (enclosing before line).length) ∧
          (line.IsLabel → (enclosing before line).length < maxNesting)) :
    (ofText source).2 = [] := by
  refine (ofText_block source).clean (Nat.zero_le _) fun site member => ?_
  obtain ⟨before, after, split, around, head, -⟩ := Site.mem_ofLines.1 member
  obtain ⟨derived, room⟩ := derives before site.line after split head
  rw [← around] at derived room
  refine ⟨fun cursor tail at_ depth => (ownLine_clean_iff at_ head).2 ?_, room⟩
  rwa [Cursor.levels, depth]

/-- Wherever a statement line starts in a script, the line is left at the cursor behind it, from which
on a label reads its body, and it records no error exactly if it is a word of the language.  And the
whole script is read without an error exactly if all its statement lines are words, at the levels
that the labels around them leave, and each label has room for a body. -/
theorem ofText_accepts (source : List Char) :
    (∀ (cursor : Cursor) (first : Token) (rest : List Token),
      cursor.upcoming <:+ Token.visible source → cursor.upcoming = first :: rest →
        first.kind ∈ openers →
          ∃ behind : Cursor, behind.upcoming = (rest.dropWhile (·.kind != .newline)).tail ∧
            cursor.errors <+: behind.errors ∧
            (∀ bodies : BodyReader, (Grammar.line bodies cursor).2 =
              if first.kind = .keyword .label then (bodies.read first.start.column behind).2
              else behind) ∧
            (behind.errors = cursor.errors ↔
              first :: rest.takeWhile (·.kind != .newline) ∈ Words.statement cursor.levels)) ∧
      ((ofText source).2 = [] ↔ ∀ before line after,
        Line.ofTokens (Token.visible source) = before ++ line :: after → line.IsHead →
          line.tokens ∈ Words.statement (maxNesting - (enclosing before line).length) ∧
            (line.IsLabel → (enclosing before line).length < maxNesting)) := by
  refine ⟨?_, fun clean before line after => derives_of_clean clean, clean_of_derives⟩
  intro cursor first rest visible next opens
  have proper (token : Token) (member : token ∈ cursor.upcoming) : token.WellFormed :=
    Token.visible_wellFormed token (visible.subset member)
  have stops : first.hasKind .newline = false := by
    have wellFormed := proper first (by simp [next])
    rw [Bool.eq_false_iff, ne_eq, wellFormed.hasKind_iff (by simp) (by simp)]
    intro newline
    simp [newline, openers] at opens
  exact line_accepts (Cursor.atLine next stops proper) opens

end Document

end NovelScript
