import NovelScript.Proofs.Blocks
import NovelScript.Proofs.Relocation

/-!
# Scripts in chunks

A line in the first column is inside of nothing.  However many labels are open above it, read or
passed over, it closes them all.  So a script can be cut in front of such a line, and its parts make
the statements that the whole makes.
-/

namespace NovelScript

/-! ## Lines behind lines -/

namespace Line

/-- Lines of which the first is in the first column. -/
def Outermost (lines : List Line) : Prop := ∀ line ∈ lines.head?, line.indent = 0

theorem head?_ofTokens (tokens : List Token) :
    (ofTokens tokens).head?.map first = tokens.find? (·.kind != .newline) := by
  fun_induction ofTokens tokens with
  | case1 => rfl
  | case2 token rest newline ih => simpa [newline] using ih
  | case3 token rest other => simp [other]

/-- A newline cuts no line in two. -/
theorem ofTokens_append_of_newline {front : List Token}
    (ends : ∀ token ∈ front.getLast?, token.kind = .newline) (tokens : List Token) :
    ofTokens (front ++ tokens) = ofTokens front ++ ofTokens tokens := by
  fun_induction ofTokens front with
  | case1 => rfl
  | case2 token rest newline ih =>
      rw [List.cons_append, ofTokens_newline newline]
      refine ih fun last found => ends last ?_
      rw [List.getLast?_cons, Option.mem_def.1 found]
      rfl
  | case3 token rest other ih =>
      -- The line does not reach the end of the tokens in front.
      have stops : rest.dropWhile (·.kind != .newline) ≠ [] := by
        intro none
        have all := List.dropWhile_eq_nil_iff.1 none
        cases last : rest.getLast? with
        | none => exact other (ends token (by simp [List.getLast?_cons, last]))
        | some final =>
            have newline := ends final (by simp [List.getLast?_cons, last])
            simpa [newline] using all final (List.mem_of_getLast? last)
      have later : ∀ final ∈ (rest.dropWhile (·.kind != .newline)).getLast?,
          final.kind = .newline := by
        intro final found
        refine ends final ?_
        obtain ⟨before, split⟩ := List.dropWhile_suffix (l := rest) (·.kind != .newline)
        rw [← split, ← List.cons_append, List.getLast?_append_of_ne_nil _ stops]
        exact found
      let line : Line := ⟨token, rest.takeWhile (·.kind != .newline)⟩
      have inside : ∀ token ∈ line.tokens, token.kind ≠ .newline := by
        intro part member
        rcases List.mem_cons.1 member with rfl | member
        · exact other
        · simpa using List.all_eq_true.1 List.all_takeWhile part member
      have cut : token :: rest ++ tokens =
          line.tokens ++ (rest.dropWhile (·.kind != .newline) ++ tokens) := by
        show _ = token :: (rest.takeWhile (·.kind != .newline) ++ _)
        rw [← List.append_assoc, List.takeWhile_append_dropWhile]
        rfl
      rw [cut, ofTokens_append line _ inside, ih later, List.cons_append]
      intro next found
      rw [List.head?_append_of_ne_nil _ stops] at found
      have stop := List.head?_dropWhile_not (·.kind != .newline) rest
      rw [found] at stop
      simpa using stop

end Line

/-! ## A longer run and a shorter one -/

/-- A cursor over a source at a depth, in front of tokens as they come from a script. -/
structure Cursor.Over (source : List Char) (depth : Nat) (cursor : Cursor) : Prop where
  source : cursor.source = source
  depth : cursor.depth = depth
  wellFormed : ∀ token ∈ cursor.upcoming, token.WellFormed

/-- Two cursors over one source at the same depth, the longer one with more lines behind those that
both have. -/
structure Cursor.Joins (source : List Char) (depth : Nat) (more : List Line)
    (short long : Cursor) : Prop where
  shorter : short.Over source depth
  longer : long.Over source depth
  lines : Line.ofTokens long.upcoming = Line.ofTokens short.upcoming ++ more

theorem Cursor.Over.of_leadsTo {source : List Char} {depth : Nat} {first second : Cursor}
    (cursor : first.Over source depth) (leads : first.LeadsTo second) :
    second.Over source depth :=
  ⟨leads.source.trans cursor.source, leads.depth.trans cursor.depth,
    leads.wellFormed cursor.wellFormed⟩

namespace Cursor.Joins

variable {source : List Char} {depth : Nat} {more : List Line} {short long : Cursor}
  {line : Line} {tail tail' : List Token}

/-- Steps on both sides that leave the same lines of those that both have. -/
theorem of_leadsTo (joins : Joins source depth more short long) {short' long' : Cursor}
    (leads : short.LeadsTo short') (leads' : long.LeadsTo long')
    (lines : Line.ofTokens long'.upcoming = Line.ofTokens short'.upcoming ++ more) :
    Joins source depth more short' long' :=
  ⟨joins.shorter.of_leadsTo leads, joins.longer.of_leadsTo leads', lines⟩

theorem skipEmptyLines (joins : Joins source depth more short long) :
    Joins source depth more short.skipEmptyLines long.skipEmptyLines := by
  refine joins.of_leadsTo short.skipEmptyLines_leadsTo long.skipEmptyLines_leadsTo ?_
  rw [long.skipEmptyLines_lines joins.longer.wellFormed,
    short.skipEmptyLines_lines joins.shorter.wellFormed]
  exact joins.lines

theorem recordUnexpected (joins : Joins source depth more short long) :
    Joins source depth more short.recordUnexpected long.recordUnexpected :=
  joins.of_leadsTo (.record ..) (.record ..) joins.lines

/-- Where the shorter run is at a line, the longer one is at the same. -/
theorem atLine (joins : Joins source depth more short long) (at_ : short.AtLine line tail)
    (stops : ∀ token ∈ long.upcoming.head?, token.hasKind .newline = false) :
    ∃ tail', long.AtLine line tail' ∧
      Line.ofTokens tail'.tail = Line.ofTokens tail.tail ++ more := by
  have lines := joins.lines
  rw [at_.lines, List.cons_append] at lines
  have next : long.hasNext = true := by
    cases upcoming : long.upcoming with
    | nil => simp [upcoming] at lines
    | cons token rest => simp [Cursor.hasNext, upcoming]
  obtain ⟨line', tail', at'⟩ := Cursor.exists_atLine next stops joins.longer.wellFormed
  rw [at'.lines] at lines
  obtain ⟨rfl, rest⟩ := List.cons.inj lines
  exact ⟨tail', at', rest⟩

end Cursor.Joins

namespace Grammar

open Cursor

variable {source : List Char} {depth : Nat} {more : List Line} {short long : Cursor}
  {line : Line} {tail tail' : List Token}

/-- A block goes on as long as the next line is inside of it. -/
theorem goesOn_iff {parent : Option Nat} {cursor : Cursor}
    (stops : ∀ token ∈ cursor.upcoming.head?, token.hasKind .newline = false)
    (proper : ∀ token ∈ cursor.upcoming, token.WellFormed) :
    goesOn parent cursor = true ↔
      ∃ line ∈ (Line.ofTokens cursor.upcoming).head?, ∀ column ∈ parent, column < line.indent := by
  cases next : cursor.hasNext with
  | false =>
      have none : cursor.upcoming = [] := by simpa [hasNext] using next
      simp [goesOn, next, none]
  | true =>
      obtain ⟨line, tail, at_⟩ := exists_atLine next stops proper
      rw [at_.lines]
      simp [goesOn, next, at_.lineIndent, Option.all_eq_true]

/-- Two results of the same kind, the longer run with more lines left. -/
def Agree {α : Type} (source : List Char) (depth : Nat) (more : List Line)
    (short long : α × Cursor) : Prop :=
  long.1 = short.1 ∧ Joins source depth more short.2 long.2

/-- A line that both runs are at yields the same statement. -/
theorem ownLine_agree (joins : Joins source depth more short long) (at_ : short.AtLine line tail)
    (at' : long.AtLine line tail')
    (lines : Line.ofTokens tail'.tail = Line.ofTokens tail.tail ++ more) :
    Agree source depth more (ownLine short) (ownLine long) := by
  obtain ⟨lands, leads⟩ := ownLine_lands at_
  obtain ⟨lands', leads'⟩ := ownLine_lands at'
  refine ⟨?_, joins.of_leadsTo leads leads' (by rw [lands, lands', lines])⟩
  by_cases head : line.IsHead
  · rw [ownLine_alone at_ head, ownLine_alone at' head, joins.shorter.source, joins.longer.source,
      joins.shorter.depth, joins.longer.depth]
  · rw [ownLine_of_not_isHead at_ head, ownLine_of_not_isHead at' head]

/-- A way to read bodies that stops at a line in the first column and sees nothing behind it. -/
def ReadsAlike (bodies : BodyReader) : Prop :=
  ∀ {source : List Char} {depth : Nat} {more : List Line} {short long : Cursor} (indent : Nat),
    Line.Outermost more → Joins source depth more short long →
      Agree source depth more (bodies.read indent short) (bodies.read indent long)

theorem line_agree {bodies : BodyReader} (alike : ReadsAlike bodies)
    (outermost : Line.Outermost more) (joins : Joins source depth more short long)
    (at_ : short.AtLine line tail) (at' : long.AtLine line tail')
    (lines : Line.ofTokens tail'.tail = Line.ofTokens tail.tail ++ more) :
    Agree source depth more (Grammar.line bodies short) (Grammar.line bodies long) := by
  have own := ownLine_agree joins at_ at' lines
  rw [line_eq, line_eq]
  generalize ownLine short = first at own
  generalize ownLine long = second at own
  obtain ⟨statement, behind⟩ := first
  obtain ⟨_, behind'⟩ := second
  obtain ⟨rfl, left⟩ := own
  split
  · next head body span behind equal =>
      obtain ⟨rfl, rfl⟩ := Prod.mk.inj equal
      obtain ⟨same, ends⟩ := alike span.start.column outermost left
      exact ⟨by simp only [readBody, same], ends⟩
  · next other =>
      split
      · next head body span behind equal =>
          obtain ⟨rfl, rfl⟩ := Prod.mk.inj equal
          exact absurd rfl (other head body span _)
      · exact ⟨rfl, left⟩

/-- The step of a block that goes on. -/
theorem blockWith_goesOn {bodies : BodyReader} {parent : Option Nat} {cursor : Cursor}
    (more : goesOn parent cursor.skipEmptyLines = true) :
    blockWith bodies parent cursor =
      ((Grammar.line bodies cursor.skipEmptyLines).1.toList ++
          (blockWith bodies parent (Grammar.line bodies cursor.skipEmptyLines).2).1,
        (blockWith bodies parent (Grammar.line bodies cursor.skipEmptyLines).2).2) := by
  rw [blockWith]
  simp only
  rw [if_pos more, behindLine_eq bodies (hasNext_of_goesOn more)]

/-- Where the block of the shorter run goes on, both runs are at the same line and go on. -/
theorem goesOn_joins {parent : Option Nat} (joins : Joins source depth more short long)
    (goes : goesOn parent short.skipEmptyLines = true) :
    goesOn parent long.skipEmptyLines = true ∧
      ∃ line tail tail', short.skipEmptyLines.AtLine line tail ∧
        long.skipEmptyLines.AtLine line tail' ∧
        Line.ofTokens tail'.tail = Line.ofTokens tail.tail ++ more := by
  have started := joins.skipEmptyLines
  have next : short.skipEmptyLines.hasNext = true := by
    simp only [goesOn, Bool.and_eq_true] at goes
    exact goes.1
  obtain ⟨line, tail, at_⟩ :=
    exists_atLine next short.skipEmptyLines_stops started.shorter.wellFormed
  obtain ⟨tail', at', lines⟩ := started.atLine at_ long.skipEmptyLines_stops
  refine ⟨?_, line, tail, tail', at_, at', lines⟩
  rw [goesOn_iff short.skipEmptyLines_stops started.shorter.wellFormed, at_.lines] at goes
  rw [goesOn_iff long.skipEmptyLines_stops started.longer.wellFormed, at'.lines]
  exact goes

/-- Where the block of the shorter run ends, the longer run is at a line in the first column, and
ends as well. -/
theorem not_goesOn_joins {parent : Option Nat} (joins : Joins source depth more short long)
    (done : ¬goesOn parent short.skipEmptyLines = true) (outermost : Line.Outermost more)
    (closes : parent = none → more = []) :
    ¬goesOn parent long.skipEmptyLines = true := by
  have started := joins.skipEmptyLines
  rw [goesOn_iff short.skipEmptyLines_stops started.shorter.wellFormed] at done
  rw [goesOn_iff long.skipEmptyLines_stops started.longer.wellFormed, started.lines,
    List.head?_append]
  rintro ⟨line, first, inside⟩
  cases here : (Line.ofTokens short.skipEmptyLines.upcoming).head? with
  | some other =>
      rw [here, Option.some_or] at first
      exact done ⟨line, here.trans first, inside⟩
  | none =>
      rw [here, Option.none_or] at first
      cases parent with
      | none => simp [closes rfl] at first
      | some column =>
          have outside := outermost line first
          have deeper := inside column rfl
          omega

/-- A block ends with the lines that both runs have, unless it has no parent and takes them all. -/
theorem blockWith_agree {bodies : BodyReader} (alike : ReadsAlike bodies) {parent : Option Nat}
    (outermost : Line.Outermost more) (closes : parent = none → more = [])
    (joins : Joins source depth more short long) :
    Agree source depth more (blockWith bodies parent short) (blockWith bodies parent long) := by
  fun_induction blockWith bodies parent short generalizing long with
  | case1 short start goes first rest =>
      rename_i ih
      obtain ⟨goes', line, tail, tail', at_, at', lines⟩ := goesOn_joins joins goes
      obtain ⟨same, left⟩ := line_agree alike outermost joins.skipEmptyLines at_ at' lines
      have behind := behindLine_eq bodies (hasNext_of_goesOn goes)
      rw [behind] at ih
      obtain ⟨later, ends⟩ := ih left
      rw [blockWith_goesOn goes']
      simp only [rest, first]
      rw [behind]
      exact ⟨congrArg₂ (· ++ ·) (congrArg Option.toList same) later, ends⟩
  | case2 short start =>
      rename_i done
      rw [blockWith]
      simp only
      rw [if_neg (not_goesOn_joins joins done outermost closes)]
      exact ⟨rfl, joins.skipEmptyLines⟩

/-- A block that is passed over goes on as one that is read. -/
theorem skipBlock_eq (indent : Nat) (cursor : Cursor) :
    cursor.skipBlock indent =
      if goesOn (some indent) cursor.skipEmptyLines = true then
        cursor.skipEmptyLines.skipLine.skipBlock indent
      else cursor.skipEmptyLines := by
  rw [skipBlock]
  simp [goesOn]

theorem skipBlock_joins (indent : Nat) (outermost : Line.Outermost more)
    (joins : Joins source depth more short long) :
    Joins source depth more (short.skipBlock indent) (long.skipBlock indent) := by
  fun_induction Cursor.skipBlock indent short generalizing long with
  | case1 short start goes =>
      rename_i ih
      have goes_ : goesOn (some indent) short.skipEmptyLines = true := by simpa [goesOn] using goes
      obtain ⟨goes', line, tail, tail', at_, at', lines⟩ := goesOn_joins joins goes_
      rw [skipBlock_eq indent long, if_pos goes']
      refine ih (joins.skipEmptyLines.of_leadsTo (skipLine_leadsTo _) (skipLine_leadsTo _) ?_)
      rw [at_.skipLine_upcoming, at'.skipLine_upcoming, lines]
  | case2 short start =>
      rename_i done
      have done_ : ¬goesOn (some indent) short.skipEmptyLines = true := by simpa [goesOn] using done
      rw [skipBlock_eq indent long, if_neg (not_goesOn_joins joins done_ outermost (by simp))]
      exact joins.skipEmptyLines

/-- Whatever the levels that are left, the body of a label ends in front of a line in the first
column. -/
theorem bodiesWithin_alike (levels : Nat) : ReadsAlike (bodiesWithin levels) := by
  induction levels with
  | zero =>
      intro source depth more short long indent outermost joins
      exact ⟨rfl, skipBlock_joins indent outermost joins.recordUnexpected⟩
  | succ levels ih =>
      intro source depth more short long indent outermost joins
      simp only [bodiesWithin, enterNested, joins.shorter.depth, joins.longer.depth]
      by_cases full : depth ≥ maxNesting
      · rw [if_pos full, if_pos full]
        exact ⟨rfl, skipBlock_joins indent outermost joins.recordUnexpected⟩
      · rw [if_neg full, if_neg full]
        have inside : Joins source (depth + 1) more { short with depth := depth + 1 }
            { long with depth := depth + 1 } :=
          ⟨{ joins.shorter with depth := rfl }, { joins.longer with depth := rfl }, joins.lines⟩
        have body : Agree source (depth + 1) more
            (blockWith (bodiesWithin levels) (some indent) { short with depth := depth + 1 })
            (blockWith (bodiesWithin levels) (some indent) { long with depth := depth + 1 }) :=
          blockWith_agree ih outermost (by simp) inside
        obtain ⟨same, ends⟩ := body
        exact ⟨same, { ends.shorter with depth := congrArg (· - 1) ends.shorter.depth },
          { ends.longer with depth := congrArg (· - 1) ends.longer.depth }, ends.lines⟩

/-- What stands behind the lines of a block makes statements of its own. -/
theorem blockWith_append {bodies : BodyReader} (alike : ReadsAlike bodies) {apart : Cursor}
    (outermost : Line.Outermost more) (joins : Joins source depth more short long)
    (behind : apart.Over source depth) (lines : Line.ofTokens apart.upcoming = more) :
    (blockWith bodies none long).1 =
      (blockWith bodies none short).1 ++ (blockWith bodies none apart).1 := by
  fun_induction blockWith bodies none short generalizing long with
  | case1 short start goes first rest =>
      rename_i ih
      obtain ⟨goes', line, tail, tail', at_, at', lines'⟩ := goesOn_joins joins goes
      obtain ⟨same, left⟩ := line_agree alike outermost joins.skipEmptyLines at_ at' lines'
      have behind := behindLine_eq bodies (hasNext_of_goesOn goes)
      rw [behind] at ih
      rw [blockWith_goesOn goes', same, ih left]
      simp only [rest, first]
      rw [behind, List.append_assoc]
  | case2 short start =>
      rename_i done
      have none_ : Line.ofTokens short.skipEmptyLines.upcoming = [] := by
        cases lines : Line.ofTokens short.skipEmptyLines.upcoming with
        | nil => rfl
        | cons line rest =>
            refine absurd ?_ done
            rw [goesOn_iff short.skipEmptyLines_stops joins.skipEmptyLines.shorter.wellFormed,
              lines]
            exact ⟨line, rfl, by simp⟩
      rw [short.skipEmptyLines_lines joins.shorter.wellFormed] at none_
      have same : Joins source depth [] apart long := by
        refine ⟨behind, joins.longer, ?_⟩
        rw [joins.lines, none_, lines, List.nil_append, List.append_nil]
      exact (blockWith_agree alike (by simp [Line.Outermost]) (fun _ => rfl) same).1

end Grammar

/-! ## Documents -/

namespace Document

/-- Tokens behind a newline make statements of their own if they start in the first column. -/
theorem ofTokens_append {source : List Char} {first second : List Token}
    (proper : ∀ token ∈ first ++ second, token.WellFormed)
    (ends : ∀ token ∈ first.getLast?, token.kind = .newline)
    (outermost : Line.Outermost
      (Line.ofTokens (second.filter fun token => !token.kind.isTrivia))) :
    (ofTokens source (first ++ second)).1.statements =
      (ofTokens source first).1.statements ++ (ofTokens source second).1.statements := by
  have visible (tokens : List Token) : (Cursor.ofTokens source tokens).upcoming =
      tokens.filter fun token => !token.kind.isTrivia := rfl
  have atStart {tokens : List Token} (among : tokens ⊆ first ++ second) :
      (Cursor.ofTokens source tokens).Over source 0 :=
    ⟨rfl, rfl, fun token member => proper token (among (List.mem_filter.1 member).1)⟩
  have closed : ∀ token ∈ (first.filter fun token => !token.kind.isTrivia).getLast?,
      token.kind = .newline := by
    intro token last
    cases final : first.getLast? with
    | none => simp [List.getLast?_eq_none_iff.1 final] at last
    | some newline =>
        have kind := ends newline final
        obtain ⟨front, rfl⟩ := List.getLast?_eq_some_iff.1 final
        have kept : newline.kind.isTrivia = false := by rw [kind]; rfl
        obtain rfl : newline = token := by simpa [List.filter_append, kept] using last
        exact kind
  have joins : Cursor.Joins source 0
      (Line.ofTokens (Cursor.ofTokens source second).upcoming) (Cursor.ofTokens source first)
      (Cursor.ofTokens source (first ++ second)) := by
    refine ⟨atStart (List.subset_append_left ..), atStart (List.Subset.refl _), ?_⟩
    rw [visible, visible, visible, List.filter_append, Line.ofTokens_append_of_newline closed]
  exact Grammar.blockWith_append (Grammar.bodiesWithin_alike _) outermost joins
    (atStart (List.subset_append_right ..)) rfl

/-- Behind complete lines, whatever they hold, a script that starts in the first column is parsed as
if it stood alone. -/
theorem statements_ofText_append {lines text : List Char}
    (complete : lines = [] ∨
      (∃ newline ∈ (Token.ofText lines).getLast?, newline.kind = .newline) ∧
        ¬Text.EndsEscaped lines)
    (outermost : ∀ token ∈ (Token.visible text).find? (·.kind != .newline),
      token.start.column = 0) :
    (ofText (lines ++ text)).1.statements =
      (ofText lines).1.statements ++
        Statement.relocateAll (Position.behind lines) (ofText text).1.statements := by
  have whole : lines = [] ∨ Lexeme.Complete (Lexeme.ofText lines) ∧ ¬Text.EndsEscaped lines := by
    rcases complete with empty | ⟨⟨newline, last, kind⟩, plain⟩
    · exact .inl empty
    · exact .inr ⟨Token.complete_of_place last kind, plain⟩
  have tokens := Token.ofText_append_of_wholeLines whole text
  have ends : ∀ token ∈ (Token.ofText lines).getLast?, token.kind = .newline := by
    intro token last
    rcases complete with rfl | ⟨⟨newline, final, kind⟩, -⟩
    · simp [Token.ofText, Lexeme.ofText, Lexeme.fromContext, Token.place] at last
    · obtain rfl : newline = token := Option.some.inj (final.symm.trans last)
      exact kind
  have first : (ofTokens (lines ++ text) (Token.ofText lines)).1.statements =
      (ofText lines).1.statements := by
    have stays : Position.behind [] = id := rfl
    have tokens : (Token.ofText lines).map (Token.behind []) = Token.ofText lines :=
      List.map_id (Token.ofText lines)
    have kept := ofTokens_behind lines [] text
    rwa [List.nil_append, tokens, stays, Statement.relocateAll_id] at kept
  have second : (ofTokens (lines ++ text)
      ((Token.ofText text).map (Token.behind lines))).1.statements =
      Statement.relocateAll (Position.behind lines) (ofText text).1.statements := by
    have moved := ofTokens_behind text lines []
    rwa [List.append_nil] at moved
  rw [← first, ← second, ofText, tokens]
  refine ofTokens_append (fun token member => ?_) ends ?_
  · rcases List.mem_append.1 member with front | behind
    · exact Token.wellFormed_of_mem_ofText front
    · obtain ⟨old, among, rfl⟩ := List.mem_map.1 behind
      have wellFormed : old.WellFormed := Token.wellFormed_of_mem_ofText among
      exact wellFormed
  · intro line head
    have visible : ((Token.ofText text).map (Token.behind lines)).filter
        (fun token => !token.kind.isTrivia) = (Token.visible text).map (Token.behind lines) := by
      rw [List.filter_map]
      rfl
    have first : some line.first =
        ((Token.visible text).find? (·.kind != .newline)).map (Token.behind lines) := by
      have found := Line.head?_ofTokens ((Token.visible text).map (Token.behind lines))
      rw [visible] at head
      rw [List.find?_map, Option.mem_def.1 head] at found
      exact found
    obtain ⟨token, among, same⟩ := Option.map_eq_some_iff.1 first.symm
    have column := outermost token among
    rw [Line.indent, ← same]
    exact column

private def openLabels : List Char := "label a(:\n  label b:\n    define (\n".toList

private def fresh : List Char := "# c\n\njump b\n  pass".toList

/-- Two labels are open at the end of the first chunk, and parentheses are as well. -/
theorem openLabels_statements_append :
    (openLabels = [] ∨
        (∃ newline ∈ (Token.ofText openLabels).getLast?, newline.kind = .newline) ∧
          ¬Text.EndsEscaped openLabels) ∧
      (∀ token ∈ (Token.visible fresh).find? (·.kind != .newline), token.start.column = 0) ∧
      (ofText (openLabels ++ fresh)).1.statements =
        (ofText openLabels).1.statements ++
          Statement.relocateAll (Position.behind openLabels) (ofText fresh).1.statements := by
  have complete : openLabels = [] ∨
      (∃ newline ∈ (Token.ofText openLabels).getLast?, newline.kind = .newline) ∧
        ¬Text.EndsEscaped openLabels := by
    refine .inr ⟨⟨⟨.newline, ⟨⟨2, 12, 33⟩, ⟨3, 0, 34⟩⟩, none⟩, by decide +kernel, rfl⟩, ?_⟩
    unfold Text.EndsEscaped
    decide +kernel
  have outermost : ∀ token ∈ (Token.visible fresh).find? (·.kind != .newline),
      token.start.column = 0 := by
    decide +kernel
  exact ⟨complete, outermost, statements_ofText_append complete outermost⟩

end Document

end NovelScript
