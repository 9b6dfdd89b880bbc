import NovelScript.Proofs.Landing

/-!
# Blocks by indentation

Reading a block goes down one level with every label and comes back where the indentation does.
Whatever line it is at, the labels that are still open are those that indentation puts around it, so
that the statements it finds are, in preorder, those of the statement lines.
-/

namespace NovelScript

/-! ## Preorder with the labels around -/

namespace Statement

mutual

/-- The statement and all below it, in preorder, with the labels around each, innermost first. -/
def lineage (around : List Statement) : Statement → List (List Statement × Statement)
  | .label head body span =>
      (around, .label head body span) :: lineageOfAll (.label head body span :: around) body
  | statement => [(around, statement)]

def lineageOfAll (around : List Statement) : List Statement → List (List Statement × Statement)
  | [] => []
  | statement :: rest => lineage around statement ++ lineageOfAll around rest

end

theorem lineage_of_opener {statement : Statement} (other : statement.opener ≠ .keyword .label)
    (around : List Statement) : lineage around statement = [(around, statement)] := by
  cases statement with
  | label head body span => exact absurd rfl other
  | _ => simp [lineage]

mutual

theorem lineage_nodes (around : List Statement) (statement : Statement) :
    (lineage around statement).map (fun node => (node.1.length, node.2)) =
      nodes around.length statement := by
  cases statement with
  | label head body span =>
      have inside := lineageOfAll_nodes (.label head body span :: around) body
      rw [lineage, nodes, List.map_cons, inside]
      rfl
  | _ => simp [lineage, nodes]

theorem lineageOfAll_nodes (around : List Statement) (statements : List Statement) :
    (lineageOfAll around statements).map (fun node => (node.1.length, node.2)) =
      nodesOfAll around.length statements := by
  cases statements with
  | nil => simp [lineageOfAll, nodesOfAll]
  | cons statement rest =>
      have first := lineage_nodes around statement
      have later := lineageOfAll_nodes around rest
      rw [lineageOfAll, nodesOfAll, List.map_append, first, later]

end

end Statement

def Document.lineage (document : Document) : List (List Statement × Statement) :=
  Statement.lineageOfAll [] document.statements

theorem Document.lineage_nodes (document : Document) :
    document.lineage.map (fun node => (node.1.length, node.2)) = document.nodes :=
  Statement.lineageOfAll_nodes [] document.statements

namespace Grammar

open Statement

/-! ## What a block yields -/

/-- The labels of a document that stand for given lines. -/
def Around (above : List Line) (around : List Statement) : Prop :=
  around.map (·.span.start) = above.map (·.first.start)

/-- A node that was read at a site, on the way to `last`. -/
structure Visited (last : Cursor) (site : Site) (node : List Statement × Statement) : Prop where
  opened : OpenedBy site.line.first.kind site.line.first node.2
  around : Around site.around node.1
  read : ∃ cursor tail, cursor.AtLine site.line tail ∧ cursor.source = last.source ∧
    cursor.depth = site.around.length ∧
    (ownLine cursor).1.map own = some node.2.own ∧ (ownLine cursor).2.errors <+: last.errors
  capped : site.line.IsLabel → site.around.length = maxNesting → last.errors ≠ []

theorem Visited.mono {first second : Cursor} {site : Site} {node : List Statement × Statement}
    (visited : Visited first site node) (leads : first.LeadsTo second) :
    Visited second site node := by
  obtain ⟨cursor, tail, at_, source, depth, own, errors⟩ := visited.read
  refine ⟨visited.opened, visited.around, ?_, ?_⟩
  · exact ⟨cursor, tail, at_, source.trans leads.source.symm, depth, own,
      errors.trans leads.errors⟩
  · intro isLabel full none
    have shorter := leads.errors
    rw [none, List.prefix_nil] at shorter
    exact visited.capped isLabel full shorter

/-- A site whose line is read without an error wherever a cursor comes to it, and that leaves room
for a body. -/
structure CleanSite (site : Site) : Prop where
  reads : ∀ (cursor : Cursor) (tail : List Token), cursor.AtLine site.line tail →
    cursor.depth = site.around.length → (ownLine cursor).2.errors = cursor.errors
  room : site.line.IsLabel → site.around.length < maxNesting

/-- A block that was read from `cursor` to `last`, inside the labels `above`: it takes `lines`, all
deeper than `parent`, up to the first line that is not, and yields the statements of their sites,
without an error if these are clean. -/
structure BlockRead (above : List Line) (parent : Option Nat) (cursor last : Cursor)
    (statements : List Statement) (lines : List Line) : Prop where
  leads : cursor.LeadsTo last
  takes : Line.ofTokens cursor.upcoming = lines ++ Line.ofTokens last.upcoming
  deeper : ∀ column ∈ parent, Line.Deeper column lines
  closes : ∀ line ∈ (Line.ofTokens last.upcoming).head?, ∃ column ∈ parent, line.indent ≤ column
  visits : ∀ around, Around above around →
    List.Forall₂ (Visited last) (Site.among above [] lines) (lineageOfAll around statements)
  clean : above.length ≤ maxNesting → (∀ site ∈ Site.among above [] lines, CleanSite site) →
    last.errors = cursor.errors

namespace BlockRead

variable {above : List Line} {parent : Option Nat} {cursor behind last : Cursor}
  {statements : List Statement} {lines : List Line} {line : Line} {tail : List Token}

theorem skipEmptyLines (proper : ∀ token ∈ cursor.upcoming, token.WellFormed)
    (block : BlockRead above parent cursor.skipEmptyLines last statements lines) :
    BlockRead above parent cursor last statements lines := by
  refine ⟨(cursor.skipEmptyLines_leadsTo).trans block.leads, ?_, block.deeper, block.closes,
    block.visits, fun room clean => (block.clean room clean).trans cursor.skipEmptyLines_errors⟩
  rw [← Cursor.skipEmptyLines_lines cursor proper]
  exact block.takes

theorem nil (stops : ∀ token ∈ cursor.upcoming.head?, token.hasKind .newline = false)
    (proper : ∀ token ∈ cursor.upcoming, token.WellFormed) (done : ¬goesOn parent cursor = true) :
    BlockRead above parent cursor cursor [] [] := by
  refine ⟨.refl, rfl, by simp [Line.Deeper], ?_, fun _ _ => .nil, fun _ _ => rfl⟩
  intro line first
  simp only [goesOn, Bool.and_eq_true, not_and] at done
  have more : cursor.hasNext = true := by
    cases next : cursor.upcoming with
    | nil => simp [next] at first
    | cons token rest => simp [Cursor.hasNext, next]
  obtain ⟨here, tail, at_⟩ := Cursor.exists_atLine more stops proper
  have closes := done more
  rw [at_.lines] at first
  cases first
  cases parent with
  | none => simp at closes
  | some column => exact ⟨column, rfl, by simpa [at_.lineIndent] using closes⟩

theorem cons_skipped (deep : maxNesting < above.length) (at_ : cursor.AtLine line tail)
    (inside : ∀ column ∈ parent, column < line.indent)
    (rest : BlockRead above parent cursor.skipLine last [] lines) :
    BlockRead above parent cursor last [] (line :: lines) := by
  refine ⟨cursor.skipLine_leadsTo.trans rest.leads, ?_, ?_, rest.closes, ?_,
    fun room => absurd deep (Nat.not_lt.2 room)⟩
  · rw [at_.lines, ← at_.skipLine_upcoming, rest.takes, List.cons_append]
  · intro column member later among
    rcases List.mem_cons.1 among with rfl | among
    · exact inside column member
    · exact rest.deeper column member later among
  · intro around outside
    rw [Site.among_of_length_lt deep]
    exact .nil

private theorem visited_line (at_ : cursor.AtLine line tail) (depth : cursor.depth = above.length)
    {found statement : Statement} (yields : (ownLine cursor).1 = some found)
    (opened : OpenedBy line.first.kind line.first statement) (same : found.own = statement.own)
    (leads : (ownLine cursor).2.LeadsTo last)
    (capped : line.IsLabel → above.length = maxNesting → last.errors ≠ [])
    {around : List Statement} (outside : Around above around) :
    Visited last ⟨above, line⟩ (around, statement) := by
  obtain ⟨-, reads⟩ := ownLine_lands at_
  refine ⟨opened, outside, ?_, capped⟩
  refine ⟨cursor, tail, at_, ?_, depth, by rw [yields, Option.map_some, same], leads.errors⟩
  exact (reads.trans leads).source.symm

theorem cons_of_not_isLabel (at_ : cursor.AtLine line tail)
    (depth : cursor.depth = above.length) (deep : above.length ≤ maxNesting)
    (inside : ∀ column ∈ parent, column < line.indent) (other : ¬line.IsLabel)
    (rest : BlockRead above parent (ownLine cursor).2 last statements lines) :
    BlockRead above parent cursor last ((ownLine cursor).1.toList ++ statements)
      (line :: lines) := by
  obtain ⟨lands, reads⟩ := ownLine_lands at_
  refine ⟨reads.trans rest.leads, ?_, ?_, rest.closes, ?_, ?_⟩
  · rw [at_.lines, ← lands, rest.takes, List.cons_append]
  · intro column member later among
    rcases List.mem_cons.1 among with rfl | among
    · exact inside column member
    · exact rest.deeper column member later among
  · intro around outside
    have later := rest.visits around outside
    rw [Site.among_cons_of_not_isLabel above other]
    by_cases head : line.IsHead
    · obtain ⟨statement, yields, opened⟩ := ownLine_of_isHead at_ head
      have visited := visited_line at_ depth yields opened rfl rest.leads
        (fun isLabel => absurd isLabel other) outside
      have plain : statement.opener ≠ .keyword .label := opened.1.symm ▸ other
      have cons : (some statement).toList ++ statements = statement :: statements := rfl
      rw [if_pos ⟨head, deep⟩, yields, cons, lineageOfAll, lineage_of_opener plain]
      exact .cons visited later
    · rw [if_neg fun both => head both.1, ownLine_of_not_isHead at_ head]
      exact later
  · intro room clean
    rw [Site.among_cons_of_not_isLabel above other] at clean
    have later := rest.clean room fun site member => clean site (List.mem_append_right _ member)
    refine later.trans ?_
    by_cases head : line.IsHead
    · exact (clean ⟨above, line⟩ (by simp [head, deep])).reads cursor tail at_ depth
    · rw [ownLine_of_not_isHead at_ head]
      exact cursor.skipLine_errors

theorem cons_of_isLabel (at_ : cursor.AtLine line tail)
    (depth : cursor.depth = above.length) (deep : above.length ≤ maxNesting)
    (inside : ∀ column ∈ parent, column < line.indent) (isLabel : line.IsLabel)
    {head : LabelHead} {unread : List Statement} {extent span : Span}
    (yields : (ownLine cursor).1 = some (.label head unread extent))
    (starts : span.start = line.first.start) (same : extent.start = line.first.start)
    {body : List Statement} {bodyLines : List Line}
    (below : BlockRead (line :: above) (some line.indent) (ownLine cursor).2 behind body bodyLines)
    (capped : above.length = maxNesting → behind.errors ≠ [])
    (rest : BlockRead above parent behind last statements lines) :
    BlockRead above parent cursor last (.label head body span :: statements)
      (line :: (bodyLines ++ lines)) := by
  obtain ⟨lands, reads⟩ := ownLine_lands at_
  have closes (next : Line) (first : next ∈ lines.head?) : next.indent ≤ line.indent := by
    have member : next ∈ (Line.ofTokens behind.upcoming).head? := by
      rw [rest.takes, List.head?_append, Option.mem_def.1 first]
      rfl
    obtain ⟨column, equal, outside⟩ := below.closes next member
    cases equal
    exact outside
  refine ⟨(reads.trans below.leads).trans rest.leads, ?_, ?_, rest.closes, ?_, ?_⟩
  · rw [at_.lines, ← lands, below.takes, rest.takes, List.cons_append, List.append_assoc]
  · intro column member later among
    have outer := inside column member
    rcases List.mem_cons.1 among with rfl | among
    · exact outer
    · rcases List.mem_append.1 among with among | among
      · exact Nat.lt_trans outer (below.deeper line.indent rfl later among)
      · exact rest.deeper column member later among
  · intro around outside
    have opened : OpenedBy line.first.kind line.first (.label head body span) :=
      ⟨(show line.first.kind = _ from isLabel).symm, starts⟩
    have own_ : Statement.own (.label head unread extent) =
        Statement.own (.label head body span) := by
      simp only [Statement.own, same, starts]
    -- The label and its body were read before the end of the block; errors are never withdrawn.
    have visited := visited_line at_ depth yields opened own_ (below.leads.trans rest.leads)
      (fun _ full none => by
        have shorter := rest.leads.errors
        rw [none, List.prefix_nil] at shorter
        exact capped full shorter) outside
    have inner := (below.visits (.label head body span :: around) (by
      simp only [Around, List.map_cons] at outside ⊢
      rw [outside]
      exact congrArg (· :: _) starts)).imp fun _ _ found => found.mono rest.leads
    have later := rest.visits around outside
    rw [Site.among_cons_of_isLabel above isLabel (below.deeper line.indent rfl) closes,
      if_pos deep, lineageOfAll, lineage]
    exact .cons visited (List.rel_append inner later)
  · intro room clean
    rw [Site.among_cons_of_isLabel above isLabel (below.deeper line.indent rfl) closes,
      if_pos deep] at clean
    have here := clean ⟨above, line⟩ (by simp)
    have inner := below.clean (here.room isLabel) fun site member => clean site (by simp [member])
    have later := rest.clean room fun site member => clean site (by simp [member])
    exact later.trans (inner.trans (here.reads cursor tail at_ depth))

end BlockRead

/-! ## Reading a block -/

theorem line_of_not_isLabel (bodies : BodyReader) {cursor : Cursor} {line : Line}
    {tail : List Token} (at_ : cursor.AtLine line tail) (other : ¬line.IsLabel) :
    Grammar.line bodies cursor = ownLine cursor := by
  rw [line_eq]
  split
  · next head body span behind equal =>
      by_cases starts : line.IsHead
      · obtain ⟨statement, yields, opened⟩ := ownLine_of_isHead at_ starts
        rw [equal] at yields
        cases yields
        exact absurd opened.1.symm other
      · have none := ownLine_of_not_isHead at_ starts
        rw [equal] at none
        cases none
  · rfl

private theorem readBody_eq (bodies : BodyReader) (head : LabelHead) (span : Span)
    (cursor : Cursor) :
    ∃ extent : Span, readBody bodies head span cursor =
        (some (.label head (bodies.read span.start.column cursor).1 extent),
          (bodies.read span.start.column cursor).2) ∧ extent.start = span.start :=
  ⟨_, rfl, rfl⟩

theorem line_of_isLabel (bodies : BodyReader) {cursor : Cursor} {line : Line} {tail : List Token}
    (at_ : cursor.AtLine line tail) (isLabel : line.IsLabel) :
    ∃ head unread extent span, (ownLine cursor).1 = some (.label head unread extent) ∧
      extent.start = line.first.start ∧ span.start = line.first.start ∧
      Grammar.line bodies cursor =
        (some (.label head (bodies.read line.indent (ownLine cursor).2).1 span),
          (bodies.read line.indent (ownLine cursor).2).2) := by
  have starts : line.IsHead := by
    rw [Line.IsHead, show line.first.kind = _ from isLabel]
    simp [openers]
  obtain ⟨statement, yields, opened⟩ := ownLine_of_isHead at_ starts
  have kind : statement.opener = .keyword .label := opened.1.trans isLabel
  cases statement with
  | label head unread extent =>
      have same : extent.start = line.first.start := opened.2
      have equal : ownLine cursor = (some (.label head unread extent), (ownLine cursor).2) :=
        Prod.ext yields rfl
      have column : extent.start.column = line.indent := congrArg Position.column same
      obtain ⟨span, read, begins⟩ := readBody_eq bodies head extent (ownLine cursor).2
      refine ⟨head, unread, extent, span, yields, same, begins.trans same, ?_⟩
      rw [line_eq, equal]
      simpa only [column] using read
  | _ => cases kind

/-- What reading the bodies of labels has to do, inside the labels `above`. -/
def ReadsBodies (bodies : BodyReader) (above : List Line) : Prop :=
  ∀ indent cursor, cursor.depth + 1 = above.length →
    (∀ token ∈ cursor.upcoming, token.WellFormed) →
      ∃ lines, BlockRead above (some indent) cursor (bodies.read indent cursor).2
          (bodies.read indent cursor).1 lines ∧
        (cursor.depth = maxNesting → (bodies.read indent cursor).2.errors ≠ [])

/-- A block reads its lines one by one, and the body of each label with it. -/
theorem blockWith_reads {bodies : BodyReader} {above : List Line}
    (reads : ∀ label, ReadsBodies bodies (label :: above)) (deep : above.length ≤ maxNesting)
    (parent : Option Nat) (cursor : Cursor) (depth : cursor.depth = above.length)
    (proper : ∀ token ∈ cursor.upcoming, token.WellFormed) :
    ∃ lines, BlockRead above parent cursor (blockWith bodies parent cursor).2
      (blockWith bodies parent cursor).1 lines := by
  fun_induction blockWith bodies parent cursor with
  | case1 cursor start more first rest ih =>
      have skipped := cursor.skipEmptyLines_leadsTo
      simp only [goesOn, Bool.and_eq_true] at more
      obtain ⟨line, tail, at_⟩ := Cursor.exists_atLine more.1 cursor.skipEmptyLines_stops
        (skipped.wellFormed proper)
      have inside (column : Nat) (member : column ∈ parent) : column < line.indent := by
        cases member
        simpa [at_.lineIndent] using more.2
      have depth_ : start.depth = above.length := skipped.depth.trans depth
      obtain ⟨-, leads⟩ := ownLine_lands at_
      have behind := behindLine_eq bodies more.1
      by_cases isLabel : line.IsLabel
      · obtain ⟨head, unread, extent, span, yields, same, starts, equal⟩ :=
          line_of_isLabel bodies at_ isLabel
        obtain ⟨bodyLines, below, capped⟩ := reads line line.indent (ownLine start).2
          (by simp [leads.depth, depth_]) (leads.wellFormed at_.wellFormed)
        rw [behind, equal] at ih
        obtain ⟨lines, block⟩ := ih ((leads.trans below.leads).depth.trans depth_)
          ((leads.trans below.leads).wellFormed at_.wellFormed)
        refine ⟨line :: (bodyLines ++ lines), BlockRead.skipEmptyLines proper ?_⟩
        simp only [first, rest]
        rw [behind, equal]
        exact BlockRead.cons_of_isLabel at_ depth_ deep inside isLabel yields starts same below
          (fun full => capped (by rw [leads.depth, depth_, full])) block
      · have equal := line_of_not_isLabel bodies at_ isLabel
        rw [behind, equal] at ih
        obtain ⟨lines, block⟩ := ih (leads.depth.trans depth_) (leads.wellFormed at_.wellFormed)
        refine ⟨line :: lines, BlockRead.skipEmptyLines proper ?_⟩
        simp only [first, rest]
        rw [behind, equal]
        exact block.cons_of_not_isLabel at_ depth_ deep inside isLabel
  | case2 cursor start done =>
      refine ⟨[], BlockRead.skipEmptyLines proper ?_⟩
      exact .nil cursor.skipEmptyLines_stops (cursor.skipEmptyLines_leadsTo.wellFormed proper) done

/-! ## Reading bodies -/

theorem BlockRead.leaveNested {above : List Line} {parent : Option Nat} {cursor last : Cursor}
    {statements : List Statement} {lines : List Line}
    (block : BlockRead above parent { cursor with depth := cursor.depth + 1 } last statements
      lines) : BlockRead above parent cursor last.leaveNested statements lines := by
  obtain ⟨source, depth, errors, suffix⟩ := block.leads
  refine ⟨⟨source, ?_, errors, suffix⟩, block.takes, block.deeper, block.closes, ?_, block.clean⟩
  · simp [Cursor.leaveNested, depth]
  · intro around outside
    refine (block.visits around outside).imp fun _ _ visited => ?_
    exact ⟨visited.opened, visited.around, visited.read, visited.capped⟩

theorem skipBlock_reads {above : List Line} (deep : maxNesting < above.length) (indent : Nat)
    (cursor : Cursor) (proper : ∀ token ∈ cursor.upcoming, token.WellFormed) :
    ∃ lines, BlockRead above (some indent) cursor (cursor.skipBlock indent) [] lines := by
  fun_induction Cursor.skipBlock indent cursor with
  | case1 cursor start more ih =>
      have skipped := cursor.skipEmptyLines_leadsTo
      obtain ⟨line, tail, at_⟩ := Cursor.exists_atLine more.1 cursor.skipEmptyLines_stops
        (skipped.wellFormed proper)
      obtain ⟨lines, rest⟩ := ih (start.skipLine_leadsTo.wellFormed at_.wellFormed)
      refine ⟨line :: lines, BlockRead.skipEmptyLines proper ?_⟩
      refine .cons_skipped deep at_ ?_ rest
      intro column member
      cases member
      exact at_.lineIndent ▸ more.2
  | case2 cursor start done =>
      refine ⟨[], BlockRead.skipEmptyLines proper ?_⟩
      refine .nil cursor.skipEmptyLines_stops (cursor.skipEmptyLines_leadsTo.wellFormed proper) ?_
      simpa [goesOn] using done

/-- Bodies are read as far as levels are left; below the last level they are skipped, with an
error. -/
theorem bodiesWithin_reads (levels : Nat) (above : List Line)
    (cap : levels + above.length = maxNesting + 1) : ReadsBodies (bodiesWithin levels) above := by
  induction levels generalizing above with
  | zero =>
      intro indent cursor depth proper
      have deep : maxNesting < above.length := by omega
      obtain ⟨lines, block⟩ := skipBlock_reads deep indent cursor.recordUnexpected proper
      have recorded := Cursor.LeadsTo.record cursor .unexpectedToken []
      refine ⟨lines, ⟨recorded.trans block.leads, block.takes, block.deeper, block.closes,
        block.visits, fun room => absurd deep (Nat.not_lt.2 room)⟩, ?_⟩
      intro full none
      have errors := block.leads.errors
      have same : (cursor.recordUnexpected.skipBlock indent).errors = [] := none
      rw [same, List.prefix_nil] at errors
      simp [Cursor.recordUnexpected, Cursor.record] at errors
  | succ levels ih =>
      intro indent cursor depth proper
      have room : ¬cursor.depth ≥ maxNesting := by omega
      have entered : cursor.enterNested = (true, { cursor with depth := cursor.depth + 1 }) := by
        rw [Cursor.enterNested, if_neg room]
      have below (label : Line) : ReadsBodies (bodiesWithin levels) (label :: above) :=
        ih (label :: above) (by simp only [List.length_cons]; omega)
      obtain ⟨lines, block⟩ := blockWith_reads below (by omega) (some indent)
        { cursor with depth := cursor.depth + 1 } depth proper
      have read : (bodiesWithin (levels + 1)).read indent cursor =
          ((blockWith (bodiesWithin levels) (some indent)
            { cursor with depth := cursor.depth + 1 }).1,
          (blockWith (bodiesWithin levels) (some indent)
            { cursor with depth := cursor.depth + 1 }).2.leaveNested) := by
        simp only [bodiesWithin, entered]
      rw [read]
      exact ⟨lines, block.leaveNested, fun full => absurd full (by omega)⟩

theorem block_reads (cursor : Cursor) (top : cursor.depth = 0)
    (proper : ∀ token ∈ cursor.upcoming, token.WellFormed) :
    BlockRead [] none cursor (block none cursor).2 (block none cursor).1
      (Line.ofTokens cursor.upcoming) := by
  have reads (label : Line) : ReadsBodies (bodiesWithin cursor.levels) [label] :=
    bodiesWithin_reads cursor.levels [label] (by simp [Cursor.levels, top])
  obtain ⟨lines, block⟩ := blockWith_reads reads (by simp) none cursor top proper
  have ends : Line.ofTokens (Grammar.block none cursor).2.upcoming = [] := by
    rw [← List.head?_eq_none_iff, Option.eq_none_iff_forall_not_mem]
    intro line first
    obtain ⟨column, member, -⟩ := block.closes line first
    cases member
  have all : Line.ofTokens cursor.upcoming =
      lines ++ Line.ofTokens (Grammar.block none cursor).2.upcoming := block.takes
  rw [ends, List.append_nil] at all
  rw [all]
  exact block

end Grammar

end NovelScript
