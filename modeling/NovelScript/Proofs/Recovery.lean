import NovelScript.Proofs.BlockRuns
import NovelScript.Proofs.ErrorOrder
import NovelScript.Proofs.Progress

/-!
# Recovery

Behind its rule a statement should have come to the end of its line.  What is left instead is one
error, whatever it is, and the statement behind it starts on its own line.  So there are as many of
these errors as there are statements that leave something, in the order of the statements, and each
can be told from its own line.
-/

namespace NovelScript

open Grammar

namespace Site

/-- Behind the rule of a statement that is read on its own line alone, a label as far as its head. -/
def behindRule (source : List Char) (site : Site) : Cursor :=
  (lineStatement.parse { source, upcoming := site.line.tokens, depth := site.around.length }).2

/-- The error that the statement leaves, if there is a rest of its line. -/
def surplus (source : List Char) (site : Site) : Option ParseError :=
  (site.behindRule source).upcoming.head?.map fun token =>
    ⟨.unexpectedEndOfLine, (site.behindRule source).current, some token, [.newline]⟩

end Site

namespace Cursor

/-- Moves from one cursor to another, at whatever depth either of them is. -/
def Reaches (first last : Cursor) : Prop :=
  Journey { first with depth := 0 } { last with depth := 0 }

namespace Reaches

variable {first second third : Cursor}

theorem of_journey (journey : Journey first second) : Reaches first second := journey.atDepth 0

theorem trans (one : Reaches first second) (two : Reaches second third) : Reaches first third :=
  Journey.trans one two

end Reaches

/-- The errors that the rest of a line has become. -/
def overruns (cursor : Cursor) : List ParseError :=
  cursor.errors.filter (·.problem = .unexpectedEndOfLine)

theorem overruns_congr {one two : Cursor} (same : one.errors = two.errors) :
    one.overruns = two.overruns := by
  rw [overruns, overruns, same]

@[simp] theorem overruns_recordUnexpected (cursor : Cursor) :
    cursor.recordUnexpected.overruns = cursor.overruns := by
  simp [overruns, recordUnexpected, record]

/-- Within a line nothing but tokens is unexpected. -/
theorem Trace.overruns_eq {first last : Cursor} (trace : Trace first last) :
    last.overruns = first.overruns := by
  induction trace with
  | refl => rfl
  | take next within later ih => exact ih
  | record later ih =>
      rw [ih]
      simp [overruns, Cursor.record]

/-- What is left of a line is one error, which names its first token. -/
theorem expectEndOfLine_errors (cursor : Cursor) {left tail : List Token}
    (next : cursor.upcoming = left ++ tail)
    (inside : ∀ token ∈ left, token.hasKind .newline = false) (ends : LineEnd tail) :
    cursor.expectEndOfLine.2.errors = cursor.errors ++ (left.head?.map fun token =>
      (⟨.unexpectedEndOfLine, cursor.current, some token, [.newline]⟩ : ParseError)).toList := by
  cases left with
  | nil =>
      rw [(cursor.expectEndOfLine_lands next inside ends).2.2.2 rfl]
      exact (List.append_nil _).symm
  | cons token left =>
      have more : cursor.hasNext = true := by simp [hasNext, next]
      have tested : cursor.test .newline = false := by
        simpa [test, peek?, next] using inside token (by simp)
      simp only [expectEndOfLine, more, tested, Bool.not_true, Bool.false_eq_true, if_false,
        skipLine_errors, record]
      simp [peek?, next]

end Cursor

namespace Grammar

open Cursor Statement Parse

/-! ## The line of a statement -/

/-- A statement takes the token that opens it first, so that it does not matter what was taken
before. -/
theorem lineStatement_current {cursor : Cursor} (starts : lineStatement.starts cursor = true)
    (current : Option Token) :
    lineStatement.parse { cursor with current } = lineStatement.parse cursor := by
  obtain ⟨kind, -, rule, opens, found, tested⟩ := lineStatement_form starts
  obtain ⟨head, rest, next, has⟩ := next_of_peek tested
  obtain ⟨body, rfl, -⟩ := opens.reads
  have foundAgain : lineForms.find? (fun rule => rule.starts { cursor with current }) = _ := found
  have taken := token_eq next has
  have again : token kind { cursor with current } = (some head, cursor.shift head rest) :=
    token_eq next has
  rw [show lineStatement.parse cursor = _ from Rule.choice_some found,
    show lineStatement.parse { cursor with current } = _ from Rule.choice_some foundAgain]
  show (token kind >>= body) { cursor with current } = (token kind >>= body) cursor
  rw [bind_some (congrArg Prod.fst taken), taken, bind_some (congrArg Prod.fst again), again]

/-- What a statement leaves of its line, where a cursor comes to it. -/
structure Leaves (site : Site) (statement : Statement) (cursor : Cursor) (tail left : List Token) :
    Prop where
  at_ : cursor.AtLine site.line tail
  depth : cursor.depth = site.around.length
  own : (lineStatement.parse cursor).1.map Statement.own = some statement.own
  leaves : (lineStatement.parse cursor).2.upcoming = left ++ tail
  within : left <:+ site.line.tokens
  surplus : site.surplus cursor.source = left.head?.map fun token =>
    ⟨.unexpectedEndOfLine, (lineStatement.parse cursor).2.current, some token, [.newline]⟩
  told : (lineStatement.parse cursor).2.expectEndOfLine.2.errors =
    (lineStatement.parse cursor).2.errors ++ (site.surplus cursor.source).toList
  lands : (lineStatement.parse cursor).2.expectEndOfLine.2.upcoming = tail.tail

theorem leaves_rest {site : Site} {statement found : Statement} {cursor : Cursor}
    {tail : List Token} (at_ : cursor.AtLine site.line tail)
    (depth : cursor.depth = site.around.length) (head : site.line.IsHead)
    (yields : (ownLine cursor).1 = some found) (same : found.own = statement.own) :
    Leaves site statement cursor tail (site.behindRule cursor.source).upcoming := by
  have starts := (isHead_iff at_).2 head
  rw [ownLine, if_pos starts] at yields
  -- The line on its own, and the same line in front of what follows it.
  have extends_ : Cursor.Extends tail
      { source := cursor.source, upcoming := site.line.tokens, depth := site.around.length }
      { cursor with current := none } := ⟨rfl, rfl, depth, at_.upcoming⟩
  have whole := (lineStatement_lineBound.parse.extend at_.ends extends_).2
  rw [lineStatement_current starts none] at whole
  have next : (lineStatement.parse cursor).2.upcoming =
      (site.behindRule cursor.source).upcoming ++ tail := whole.upcoming
  have within : (site.behindRule cursor.source).upcoming <:+ site.line.tokens :=
    (lineStatement_lineBound.parse.trace _).suffix
  have inside (token : Token) (member : token ∈ (site.behindRule cursor.source).upcoming) :
      token.hasKind .newline = false := at_.inside token (within.subset member)
  have surplus : site.surplus cursor.source =
      (site.behindRule cursor.source).upcoming.head?.map fun token =>
        ⟨.unexpectedEndOfLine, (lineStatement.parse cursor).2.current, some token, [.newline]⟩ := by
    rw [Site.surplus, ← show _ = (site.behindRule cursor.source).current from whole.current]
  have told := expectEndOfLine_errors _ next inside at_.ends
  obtain ⟨lands, -⟩ := expectEndOfLine_lands _ next inside at_.ends
  exact ⟨at_, depth, by rw [yields, Option.map_some, same], next, within, surplus,
    surplus ▸ told, lands⟩

/-- A statement that is read at a site between two cursors. -/
def ReadBetween (first last : Cursor) (site : Site) (node : List Statement × Statement) : Prop :=
  ∃ cursor tail left, first.Reaches cursor ∧ Leaves site node.2 cursor tail left ∧
    (lineStatement.parse cursor).2.expectEndOfLine.2.Reaches last

theorem ReadBetween.mono {first last before behind : Cursor} {site : Site}
    {node : List Statement × Statement} (read : ReadBetween first last site node)
    (earlier : before.Reaches first) (later : last.Reaches behind) :
    ReadBetween before behind site node := by
  obtain ⟨cursor, tail, left, reached, leaves, reaches⟩ := read
  exact ⟨cursor, tail, left, earlier.trans reached, leaves, reaches.trans later⟩

theorem readBetween_line {site : Site} {statement found : Statement} {cursor last : Cursor}
    {tail : List Token} (at_ : cursor.AtLine site.line tail)
    (depth : cursor.depth = site.around.length) (head : site.line.IsHead)
    (yields : (ownLine cursor).1 = some found) (same : found.own = statement.own)
    (reaches : (ownLine cursor).2.Reaches last) (around : List Statement) :
    ReadBetween cursor last site (around, statement) := by
  have leaves := leaves_rest at_ depth head yields same
  rw [ownLine, if_pos ((isHead_iff at_).2 head)] at reaches
  exact ⟨cursor, tail, _, .of_journey .stay, leaves, reaches⟩

/-- The step of a statement: the rest of its line is the only error that is not about a token. -/
theorem ownLine_overruns (site : Site) {cursor : Cursor} {tail : List Token}
    (at_ : cursor.AtLine site.line tail) (depth : cursor.depth = site.around.length)
    (head : site.line.IsHead) :
    (ownLine cursor).2.overruns = cursor.overruns ++ (site.surplus cursor.source).toList := by
  obtain ⟨statement, yields, -⟩ := ownLine_of_isHead at_ head
  have leaves := leaves_rest at_ depth head yields rfl
  have trace := lineStatement_lineBound.parse.trace cursor
  have told : (site.surplus cursor.source).toList.filter (·.problem = .unexpectedEndOfLine) =
      (site.surplus cursor.source).toList := by
    rw [List.filter_eq_self]
    intro error member
    obtain ⟨token, -, rfl⟩ := Option.map_eq_some_iff.1 (Option.mem_toList.1 member)
    rfl
  rw [ownLine, if_pos ((isHead_iff at_).2 head), overruns, leaves.told, List.filter_append, told,
    ← trace.overruns_eq]
  rfl

/-! ## Blocks -/

/-- What a run over a block tells: every statement was read at its site, and the rest of a line is
an error for each that left one. -/
structure Recovers (above : List Line) (cursor last : Cursor) (statements : List Statement)
    (lines : List Line) : Prop where
  reads : ∀ around, List.Forall₂ (ReadBetween cursor last) (Site.among above [] lines)
    (lineageOfAll around statements)
  overruns : last.overruns =
    cursor.overruns ++ (Site.among above [] lines).filterMap (Site.surplus cursor.source)

namespace Recovers

variable {above : List Line} {cursor behind last : Cursor} {statements : List Statement}
  {lines : List Line} {line : Line} {tail : List Token}

/-- Steps that neither read a statement nor make an error of the rest of a line. -/
theorem of_reaches {before : Cursor} (rest : Recovers above cursor last statements lines)
    (reaches : before.Reaches cursor) (source : cursor.source = before.source)
    (overruns : cursor.overruns = before.overruns) : Recovers above before last statements lines := by
  refine ⟨fun around => (rest.reads around).imp fun _ _ read => ?_, ?_⟩
  · exact read.mono reaches (.of_journey .stay)
  · rw [rest.overruns, source, overruns]

private theorem filterMap_single (source : List Char) (site : Site) :
    [site].filterMap (Site.surplus source) = (site.surplus source).toList := by
  cases found : site.surplus source with
  | none => simp [found]
  | some error => simp [found]

theorem cons_of_not_isLabel (deep : above.length ≤ maxNesting) (at_ : cursor.AtLine line tail)
    (depth : cursor.depth = above.length) (other : ¬line.IsLabel)
    (own : cursor.Reaches (ownLine cursor).2) (reaches : (ownLine cursor).2.Reaches last)
    (rest : Recovers above (ownLine cursor).2 last statements lines) :
    Recovers above cursor last ((ownLine cursor).1.toList ++ statements) (line :: lines) := by
  have source := (ownLine_lands at_).2.source
  have sites := Site.among_cons_of_not_isLabel above other lines
  by_cases head : line.IsHead
  · obtain ⟨statement, yields, opened⟩ := ownLine_of_isHead at_ head
    have plain : statement.opener ≠ .keyword .label := opened.1.symm ▸ other
    have step := ownLine_overruns ⟨above, line⟩ at_ depth head
    rw [if_pos ⟨head, deep⟩] at sites
    refine ⟨fun around => ?_, ?_⟩
    · have cons : (some statement).toList ++ statements = statement :: statements := rfl
      rw [sites, yields, cons, lineageOfAll, lineage_of_opener plain]
      refine .cons (readBetween_line at_ depth head yields rfl reaches around) ?_
      exact (rest.reads around).imp fun _ _ read => read.mono own (.of_journey .stay)
    · rw [sites, rest.overruns, source, step, List.filterMap_append, filterMap_single,
        List.append_assoc]
  · have skipped := ownLine_of_not_isHead at_ head
    rw [if_neg fun both => head both.1, List.nil_append] at sites
    have same : (ownLine cursor).2.overruns = cursor.overruns := by
      rw [skipped]
      exact overruns_congr cursor.skipLine_errors
    have later := rest.of_reaches own source same
    rw [skipped]
    exact ⟨fun around => sites ▸ later.reads around, sites ▸ later.overruns⟩

theorem cons_of_isLabel (deep : above.length ≤ maxNesting) (at_ : cursor.AtLine line tail)
    (depth : cursor.depth = above.length) (isLabel : line.IsLabel) {head : LabelHead}
    {unread body : List Statement} {extent span : Span}
    (yields : (ownLine cursor).1 = some (.label head unread extent))
    (starts : span.start = extent.start) {bodyLines : List Line}
    (deeper : Line.Deeper line.indent bodyLines)
    (closes : ∀ next ∈ lines.head?, next.indent ≤ line.indent)
    (own : cursor.Reaches (ownLine cursor).2) (into : (ownLine cursor).2.Reaches behind)
    (reaches : behind.Reaches last)
    (below : Recovers (line :: above) (ownLine cursor).2 behind body bodyLines)
    (rest : Recovers above behind last statements lines) (same : behind.source = cursor.source) :
    Recovers above cursor last (.label head body span :: statements)
      (line :: (bodyLines ++ lines)) := by
  have isHead : line.IsHead := by
    rw [Line.IsHead, show line.first.kind = _ from isLabel]
    simp [openers]
  have source := (ownLine_lands at_).2.source
  have sites := Site.among_cons_of_isLabel above isLabel deeper closes
  have own_ : (Statement.label head unread extent).own = (Statement.label head body span).own := by
    simp only [Statement.own, starts]
  have step := ownLine_overruns ⟨above, line⟩ at_ depth isHead
  rw [if_pos deep] at sites
  refine ⟨fun around => ?_, ?_⟩
  · rw [sites, List.singleton_append, lineageOfAll, lineage, List.cons_append]
    refine .cons (readBetween_line at_ depth isHead yields own_ (into.trans reaches) around)
      (List.rel_append ?_ ?_)
    · exact (below.reads _).imp fun _ _ read => read.mono own reaches
    · exact (rest.reads around).imp fun _ _ read =>
        read.mono (own.trans into) (.of_journey .stay)
  · rw [sites, rest.overruns, below.overruns, same, source, step, List.filterMap_append,
      List.filterMap_append, filterMap_single]
    simp only [List.append_assoc]

end Recovers

theorem BlockRun.recovers {above : List Line} {parent : Option Nat} {cursor last : Cursor}
    {statements : List Statement} {lines : List Line}
    (run : BlockRun above parent cursor last statements lines) (deep : above.length ≤ maxNesting)
    (proper : ∀ token ∈ cursor.upcoming, token.WellFormed) :
    Recovers above cursor last statements lines := by
  induction run with
  | @blank _ _ cursor _ _ _ run ih =>
      have later := ih deep (cursor.skipEmptyLines_leadsTo.wellFormed proper)
      exact later.of_reaches (.of_journey cursor.skipEmptyLines_journey)
        cursor.skipEmptyLines_leadsTo.source (overruns_congr cursor.skipEmptyLines_errors)
  | ends stops done => exact ⟨fun _ => .nil, by simp [Site.among]⟩
  | line at_ depth inside other rest ih =>
      have later := ih deep ((ownLine_lands at_).2.wellFormed proper)
      exact .cons_of_not_isLabel deep at_ depth other (.of_journey (ownLine_journey at_))
        (.of_journey rest.journey) later
  | @label above parent cursor behind last line tail head unread extent span body statements
      bodyLines lines at_ depth inside isLabel yields starts room below rest inner outer =>
      have own := (ownLine_lands at_).2
      have proper_ := own.wellFormed proper
      have into := below.journey.leaveNested
      have left := (LeadsTo.of_journey below.journey).wellFormed proper_
      have body := inner room proper_
      refine .cons_of_isLabel deep at_ depth isLabel yields starts (below.deeper _ rfl) ?_
        (.of_journey (ownLine_journey at_)) (.of_journey into) (.of_journey rest.journey)
        ⟨body.reads, body.overruns⟩ (outer deep left)
        ((LeadsTo.of_journey into).source.trans own.source)
      intro next first
      have ahead : next ∈ (Line.ofTokens behind.upcoming).head? := by
        rw [show Line.ofTokens behind.upcoming = _ from rest.takes left, List.head?_append,
          Option.mem_def.1 first]
        rfl
      obtain ⟨column, equal, outside⟩ := below.closes proper_ next ahead
      cases equal
      exact outside
  | @capped above parent cursor last line tail head unread extent span statements bodyLines lines
      at_ depth inside isLabel yields starts full skips deeper rest ih =>
      have own := (ownLine_lands at_).2
      have proper_ := own.wellFormed proper
      have left := skipped_wellFormed line.indent proper_
      have into : Journey (ownLine cursor).2
          ((ownLine cursor).2.recordUnexpected.skipBlock line.indent) :=
        .record (by simp) (skipBlock_journey line.indent (ownLine cursor).2.recordUnexpected)
      have same : ((ownLine cursor).2.recordUnexpected.skipBlock line.indent).overruns =
          (ownLine cursor).2.overruns := by
        rw [overruns_congr (skipBlock_errors line.indent _), overruns_recordUnexpected]
      have sites : Site.among (line :: above) [] bodyLines = [] :=
        Site.among_of_length_lt (by simp [full]) [] bodyLines
      refine .cons_of_isLabel deep at_ depth isLabel yields starts deeper ?_
        (.of_journey (ownLine_journey at_)) (.of_journey into) (.of_journey rest.journey)
        ⟨fun around => sites ▸ .nil, by simp [sites, same]⟩ (ih deep left)
        ((LeadsTo.of_journey into).source.trans own.source)
      intro next first
      refine skipBlock_closes line.indent (ownLine cursor).2.recordUnexpected proper_ next ?_
      rw [rest.takes left, List.head?_append, Option.mem_def.1 first]
      rfl

end Grammar

namespace Document

open Grammar

/-- The errors of a script are in the order of their positions.  Each names the next token, or none
at the end, and the one before it; none of them says that the input has ended.  Those that say so of
a line are one for each statement whose rule leaves something of its line, which is given up for the
first token behind its newline. -/
theorem ofText_recovers (source : List Char) :
    ((ofText source).2.Pairwise fun earlier later =>
      earlier.position.precedes later.position = true) ∧
    (∀ error ∈ (ofText source).2,
      (error.problem = .unexpectedToken ∨ error.problem = .unexpectedEndOfLine) ∧
        ∃ before after, Token.visible source = before ++ after ∧ before ≠ [] ∧
          error.current = before.getLast? ∧ error.next = after.head?) ∧
    (ofText source).2.filter (·.problem = .unexpectedEndOfLine) =
      (Site.ofLines (Line.ofTokens (Token.visible source))).filterMap (Site.surplus source) ∧
    List.Forall₂
      (ReadBetween (Cursor.ofTokens source (Token.ofText source))
        (block none (Cursor.ofTokens source (Token.ofText source))).2)
      (Site.ofLines (Line.ofTokens (Token.visible source))) (ofText source).1.lineage := by
  obtain ⟨places, behind, sorted, bounded⟩ := ofText_tells source
  refine ⟨?_, fun error member => ⟨?_, ?_⟩, ?_⟩
  · exact ParseError.pairwise_precedes (Token.visible_solid source) behind sorted
      fun place member => (bounded place member).2
  · have journey := block_journey none (Cursor.ofTokens source (Token.ofText source))
    have inside := journey.errors_inside (by simp [Cursor.ofTokens]) error member
    cases problem : error.problem with
    | unexpectedToken => exact .inl rfl
    | unexpectedEndOfLine => exact .inr rfl
    | unexpectedEndOfFile => exact absurd problem inside
  · obtain ⟨index, within, rfl⟩ := List.getElem_of_mem member
    have all := List.forall₂_iff_get.1 behind
    have here := all.2 index (all.1 ▸ within) within
    obtain ⟨begun, inside⟩ := bounded _ (List.get_mem places ⟨index, all.1 ▸ within⟩)
    refine ⟨_, _, (List.take_append_drop _ _).symm, ?_, here.current, here.next⟩
    intro none
    have none_ := congrArg List.length none
    rw [List.length_take, List.length_nil] at none_
    omega
  · obtain ⟨lines, run⟩ := block_run (Cursor.ofTokens source (Token.ofText source)) rfl
      Token.visible_wellFormed
    have takes := run.takes Token.visible_wellFormed
    rw [block_upcoming, Line.ofTokens_nil, List.append_nil] at takes
    have recovers := run.recovers (Nat.zero_le _) Token.visible_wellFormed
    rw [← takes] at recovers
    exact ⟨recovers.overruns, recovers.reads []⟩

end Document

end NovelScript
