import NovelScript.Proofs.DocumentAcceptance
import NovelScript.Proofs.PythonCodes

/-!
# Agreement on embedded python

Which characters of a script are python is settled line by line while it is cut into tokens; which
of these tokens become python codes is settled by the rules of statements.  On a script without
errors both come to the same: the codes of the document are the python tokens, in their order.
-/

namespace NovelScript

open Token

/-! ## Codes of lines -/

theorem Statement.own_pythonCodes (statement : Statement) :
    statement.own.pythonCodes = statement.pythonCodes := by
  cases statement <;> rfl

namespace Line

theorem noPython_of_not_isHead {line : Line} (allows : LineContext.start.Allows line.tokens)
    (other : ¬line.IsHead) : NoPython line.tokens := by
  rcases allows with binds | ⟨aims, -⟩ | none
  · refine absurd ?_ other
    simp only [List.mem_cons, List.not_mem_nil, or_false] at binds
    rcases binds with same | same | same <;> simp [IsHead, same, Grammar.openers]
  · refine absurd ?_ other
    simp only [List.mem_cons, List.not_mem_nil, or_false] at aims
    rcases aims with same | same <;> simp [IsHead, same, Grammar.openers]
  · exact none

/-- A newline holds no python, so the codes of tokens are those of their lines. -/
theorem ofTokens_pythonCodes (source : List Char) (tokens : List Token) :
    (ofTokens tokens).flatMap (fun line => pythonCodes source line.tokens) =
      pythonCodes source tokens := by
  fun_induction ofTokens tokens with
  | case1 => rfl
  | case2 token rest newline ih =>
      rw [ih]
      simp [pythonCodes, isPython, newline]
  | case3 token rest other ih =>
      rw [List.flatMap_cons, ih, ← pythonCodes_append, tokens, List.cons_append,
        List.takeWhile_append_dropWhile]

end Line

theorem Token.visible_pythonCodes (source : List Char) :
    pythonCodes source (visible source) = pythonCodes source (ofText source) := by
  have shown (token : Token) (python : token.isPython = true) : token.kind.isTrivia = false := by
    rcases isPython_iff.1 python with same | ⟨same, -⟩
    · rw [same]
      rfl
    · rw [same]
      rfl
  rw [pythonCodes, pythonCodes, visible, List.filter_filter]
  congr 2
  funext token
  cases python : token.isPython with
  | false => rfl
  | true => simp [shown token python]

namespace Grammar

/-- A statement line that is read without an error makes one code out of each of its python
tokens. -/
theorem ownLine_codes {cursor : Cursor} {line : Line} {tail : List Token}
    (at_ : cursor.AtLine line tail) (head : line.IsHead)
    (allows : LineContext.start.Allows line.tokens)
    (clean : (ownLine cursor).2.errors = cursor.errors) :
    ∃ statement, (ownLine cursor).1 = some statement ∧
      statement.pythonCodes = pythonCodes cursor.source line.tokens := by
  obtain ⟨clean₁, lands⟩ := (ownLine_clean_parts at_ head).1 clean
  have starts := (isHead_iff at_).2 head
  have next : cursor.upcoming = line.first :: (line.rest ++ tail) := at_.upcoming
  obtain ⟨statement, word, found, split, codes⟩ :=
    lineStatement_codes next starts rfl at_.wellFormed clean₁
  rw [lands, at_.upcoming] at split
  rw [← List.append_cancel_right split] at codes
  refine ⟨statement, by rw [ownLine, if_pos starts, found], ?_⟩
  rcases codes with same | ⟨empty, call, other⟩
  · exact same
  -- Tokens that a screen is called with were skipped, but the line was not opened for python.
  · rcases allows with binds | ⟨-, second, first, computed⟩ | none
    · simp [call] at binds
    · refine absurd computed (other second ?_)
      rw [List.head?_append, Option.mem_def.1 first]
      rfl
    · have silent : NoPython line.tokens := none
      rw [empty, silent.pythonCodes_eq]

end Grammar

/-! ## Codes of documents -/

/-- Where no line is capped, the sites are all the statement lines. -/
theorem Site.ofLines_line {lines : List Line}
    (open_ : ∀ before line after, lines = before ++ line :: after → ¬Line.Capped before line) :
    (ofLines lines).map Site.line = lines.filter Line.IsHead := by
  have all (before later : List Line) (split : lines = before ++ later) :
      (among [] before later).map Site.line = later.filter Line.IsHead := by
    induction later generalizing before with
    | nil => rfl
    | cons line rest ih =>
        have short := open_ before line rest split
        rw [Line.capped_iff, Nat.not_lt] at short
        rw [among_cons, List.map_append, ih (before ++ [line]) (by simp [split]), List.append_nil]
        by_cases head : line.IsHead
        · simp [head, short]
        · simp [head]
  exact all [] lines rfl

private theorem flatMap_filter {lines : List Line} {codes : Line → List PythonCode}
    (silent : ∀ line ∈ lines, ¬line.IsHead → codes line = []) :
    (lines.filter Line.IsHead).flatMap codes = lines.flatMap codes := by
  induction lines with
  | nil => rfl
  | cons line rest ih =>
      have later := ih fun other member => silent other (List.mem_cons_of_mem line member)
      by_cases head : line.IsHead
      · simp [head, later]
      · simp [head, later, silent line (by simp) head]

namespace Document

open Grammar

private theorem visited_codes {source : List Char} {last : Cursor} {site : Site}
    {node : List Statement × Statement} (visited : Visited last site node)
    (same : last.source = source) (clean : last.errors = []) (head : site.line.IsHead)
    (allows : LineContext.start.Allows site.line.tokens) :
    node.2.pythonCodes = Token.pythonCodes source site.line.tokens := by
  obtain ⟨cursor, tail, at_, there, -, own, errors⟩ := visited_clean visited clean
  obtain ⟨statement, found, codes⟩ := ownLine_codes at_ head allows errors
  rw [found, Option.map_some, Option.some.injEq] at own
  rw [← node.2.own_pythonCodes, ← own, statement.own_pythonCodes, codes, there, same]

/-- A script without errors becomes a document whose python codes are the python tokens of the
script, one for one and in their order. -/
theorem ofText_pythonCodes {source : List Char} (clean : (ofText source).2 = []) :
    (ofText source).1.pythonCodes = Token.pythonCodes source (Token.ofText source) := by
  let lines := Line.ofTokens (visible source)
  have lineage : (ofText source).1.lineage.map (·.2.pythonCodes) =
      (Site.ofLines lines).map fun site => Token.pythonCodes source site.line.tokens := by
    have read := ofText_block source
    have visits := List.forall₂_iff_get.1 (read.visits [] rfl)
    have length : (ofText source).1.lineage.length = (Site.ofLines lines).length := visits.1.symm
    refine List.ext_getElem (by simpa using length) fun place bounded inside => ?_
    rw [List.length_map] at bounded inside
    rw [List.getElem_map, List.getElem_map]
    obtain ⟨among, head⟩ := Site.line_of_mem (List.getElem_mem inside)
    exact visited_codes (visits.2 place inside bounded) read.leads.source clean head
      (Line.allows_of_mem among)
  have sites : (Site.ofLines lines).map Site.line = lines.filter Line.IsHead :=
    Site.ofLines_line (not_capped clean)
  have silent (line : Line) (member : line ∈ lines) (other : ¬line.IsHead) :
      Token.pythonCodes source line.tokens = [] :=
    (Line.noPython_of_not_isHead (Line.allows_of_mem member) other).pythonCodes_eq source
  calc (ofText source).1.pythonCodes
      = ((ofText source).1.lineage.map (·.2.pythonCodes)).flatten := by
        rw [Document.pythonCodes, ← lineage_nodes, List.flatMap_map, List.flatMap_def]
    _ = ((Site.ofLines lines).map Site.line).flatMap
          (fun line => Token.pythonCodes source line.tokens) := by
        rw [lineage, List.flatMap_map, List.flatMap_def]
    _ = lines.flatMap (fun line => Token.pythonCodes source line.tokens) := by
        rw [sites, flatMap_filter silent]
    _ = Token.pythonCodes source (visible source) := Line.ofTokens_pythonCodes source _
    _ = Token.pythonCodes source (Token.ofText source) := visible_pythonCodes source

private def scattered : List Char := "define a[0] = (1\n+ 2)\nlabel b:\n  $ (x".toList

theorem scattered_pythonCodes :
    (ofText scattered).2 = [] ∧
      (ofText scattered).1.pythonCodes = Token.pythonCodes scattered (Token.ofText scattered) ∧
      (ofText scattered).1.pythonCodes.map PythonCode.terminated = [true, true, false] := by
  have clean : (ofText scattered).2 = [] := by decide +kernel
  exact ⟨clean, ofText_pythonCodes clean, by decide +kernel⟩

end Document

end NovelScript
