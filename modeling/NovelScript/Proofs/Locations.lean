import NovelScript.Proofs.LocatedStatements

/-!
# Locations of documents

Whatever a script says, the nodes of its document have located spans that are nested as the nodes
are, statements stand one behind the other, and the expressions met inside a label lie within it.
-/

namespace NovelScript

open Parse Grammar SpanTree

variable {lines : LineMap} {start stop first last : Nat}

namespace Grammar

/-! ## Labels -/

theorem parameter_moves :
    Moves lines start (fun stop parameter => AllLie lines start stop parameter.spanTrees)
      parameter := by
  refine .bind (.token _) fun token middle one taken => ?_
  refine .bind (identifier_moves taken (Nat.le_refl _)) fun name here two named => ?_
  refine .bind (.tokenIf _) fun assigned there three _ => ?_
  cases assigned with
  | some _ =>
      refine .bind (.attempt (.require (expression_places there))) fun value stop four made => ?_
      exact .pure (.cons (named.mono (Nat.le_refl _) (by omega))
        (.mono (.option made) (by omega) (Nat.le_refl _)))
  | none => exact .pure (.cons (named.mono (Nat.le_refl _) three) .nil)

theorem labelHead_moves :
    Moves lines start (fun stop head => AllLie lines start stop head.spanTrees) labelHead := by
  refine .bind (.attempt nameIdentifier_moves) fun name middle one named => ?_
  refine .bind (.parenthesizedList _ fun _ => parameter_moves) fun parameters here two inside => ?_
  refine .bind (.attempt (.token _)) fun colon stop three _ => ?_
  exact .pure (.append (.mono (.option named) (Nat.le_refl _) (by omega))
    (inside.mono one three))

end Grammar

/-! ## Statements -/

/-- A statement between two offsets, whose own statements stand one behind the other. -/
structure Statement.Lies (lines : LineMap) (start stop : Nat) (statement : Statement) : Prop where
  tree : statement.spanTree.Lies lines start stop
  siblings : ∀ depth, ∀ node ∈ statement.nodes depth, node.2.children.Pairwise Statement.Before

namespace Statement

namespace Lies

variable {statement : Statement}

theorem of_plain (tree : statement.spanTree.Lies lines start stop)
    (plain : statement.isLabel = false) : statement.Lies lines start stop := by
  refine ⟨tree, fun depth node member => ?_⟩
  cases statement with
  | label => cases plain
  | _ =>
      simp only [nodes, List.mem_singleton] at member
      simp [member, children]

theorem mono (lies : statement.Lies lines first last) (begins : start ≤ first)
    (ends : last ≤ stop) : statement.Lies lines start stop :=
  ⟨lies.tree.mono begins ends, lies.siblings⟩

/-- Inside the text the ends of a statement are offsets of the text. -/
theorem place (lies : statement.Lies lines start stop) (inside : stop ≤ lines.size) :
    start ≤ statement.span.start.offset ∧
      statement.span.start.offset ≤ statement.span.stop.offset ∧
      statement.span.stop.offset ≤ stop ∧
      statement.span = lines.spanAt statement.span.start.offset statement.span.stop.offset := by
  obtain ⟨first, last, begins, ordered, ends, equal⟩ := lies.tree.place
  rw [spanTree_span] at equal
  have offsets : (lines.spanAt first last).start.offset = first ∧
      (lines.spanAt first last).stop.offset = last := by
    simp only [LineMap.spanAt, LineMap.positionAt_offset]
    omega
  rw [equal, offsets.1, offsets.2]
  exact ⟨begins, ordered, ends, rfl⟩

end Lies

end Statement

namespace Grammar

/-- What a statement rule makes from a cursor at `start`.  Behind a label the cursor has left the
label's last line already. -/
def Makes (lines : LineMap) (start : Nat) (result : Option Statement × Cursor) : Prop :=
  ∃ stop, start ≤ stop ∧ result.2.Along lines stop ∧ ∀ statement ∈ result.1,
    statement.Lies lines start stop ∧ (statement.isLabel = true → result.2.upcoming ≠ [] →
      statement.span.stop.offset < stop)

theorem PlacesPlain.makes {rule : Rule Statement} (places : PlacesPlain lines rule)
    {cursor : Cursor} (along : cursor.Along lines start) :
    Makes lines start (rule.parse cursor) := by
  obtain ⟨stop, further, behind, made⟩ := places start cursor along
  refine ⟨stop, further, behind, fun statement found => ?_⟩
  obtain ⟨tree, plain⟩ := made statement found
  exact ⟨.of_plain tree plain, fun label => by simp [plain] at label⟩

theorem Makes.bind {parse : Parse α} {next : α → Parse Statement} {outcome : Nat → α → Prop}
    {cursor : Cursor} (begins : Moves lines first outcome parse) (before : start ≤ first)
    (goesOn : ∀ value middle behind, first ≤ middle → Cursor.Along lines middle behind →
      outcome middle value → Makes lines start (next value behind))
    (along : cursor.Along lines first) : Makes lines start ((parse >>= next) cursor) := by
  obtain ⟨middle, further, behind, made⟩ := begins cursor along
  cases found : (parse cursor).1 with
  | none =>
      rw [bind_none found]
      exact ⟨middle, Nat.le_trans before further, behind, by simp⟩
  | some value =>
      rw [bind_some found]
      exact goesOn value middle _ further behind (made value found)

/-- Statements that were read from `start` on, and the cursor behind them.  It stands further on
than where they end, unless nothing follows. -/
structure Reads (lines : LineMap) (start stop : Nat) (read : List Statement × Cursor) : Prop where
  further : start ≤ stop
  along : read.2.Along lines stop
  lie : ∀ statement ∈ read.1, statement.Lies lines start stop
  inOrder : read.1.Pairwise Statement.Before
  behind : read.2.upcoming ≠ [] → ∀ statement ∈ read.1, statement.span.stop.offset < stop

namespace Reads

variable {statements rest : List Statement} {cursor behind : Cursor}

theorem nil (further : start ≤ stop) (along : cursor.Along lines stop) :
    Reads lines start stop ([], cursor) :=
  ⟨further, along, by simp, .nil, by simp⟩

theorem append (one : Reads lines start first (statements, cursor))
    (two : Reads lines last stop (rest, behind)) (between : first ≤ last)
    (suffix_ : behind.upcoming <:+ cursor.upcoming)
    (done : cursor.upcoming = [] → rest = []) :
    Reads lines start stop (statements ++ rest, behind) := by
  have further := one.further
  have longer := two.further
  have size := two.along.inside
  refine ⟨by omega, two.along, fun statement member => ?_, ?_, fun more statement member => ?_⟩
  · rcases List.mem_append.1 member with before | later
    · exact (one.lie statement before).mono (Nat.le_refl _) (by omega)
    · exact (two.lie statement later).mono (by omega) (Nat.le_refl _)
  · refine List.pairwise_append.2 ⟨one.inOrder, two.inOrder, fun statement before other later => ?_⟩
    -- Something follows, so the cursor between the two has left the first behind.
    have more : cursor.upcoming ≠ [] := fun empty => by simp [done empty] at later
    have ends := one.behind more statement before
    have begins := ((two.lie other later).place size).1
    unfold Statement.Before
    omega
  · rcases List.mem_append.1 member with before | later
    · have ends := ((one.lie statement before).place (by omega)).2.2.1
      have nonempty : cursor.upcoming ≠ [] := fun empty => more (by simpa [empty] using suffix_)
      have := one.behind nonempty statement before
      omega
    · exact two.behind more statement later

theorem mono {read : List Statement × Cursor} (one : Reads lines first stop read)
    (begins : start ≤ first) : Reads lines start stop read :=
  { one with
    further := Nat.le_trans begins one.further
    lie := fun statement member => (one.lie statement member).mono begins (Nat.le_refl _) }

/-- The last statement ends behind all others. -/
theorem ends_last (read : Reads lines start stop (statements, cursor)) {statement : Statement}
    (found : statements.getLast? = some statement) :
    ∃ last, start ≤ last ∧ last ≤ stop ∧ statement.span.stop = lines.positionAt last ∧
      AllLie lines start last (Statement.spanTrees statements) ∧
      (cursor.upcoming ≠ [] → last < stop) := by
  obtain ⟨others, rfl⟩ := List.getLast?_eq_some_iff.1 found
  have size := read.along.inside
  obtain ⟨begins, ordered, ends, equal⟩ := (read.lie statement (by simp)).place size
  refine ⟨statement.span.stop.offset, by omega, ends, congrArg Span.stop equal, ?_,
    fun more => read.behind more statement (by simp)⟩
  intro tree member
  obtain ⟨other, child, rfl⟩ := Statement.mem_spanTrees.1 member
  have lies := read.lie other child
  obtain ⟨begins', ordered', -, equal'⟩ := lies.place size
  -- Another statement ends before the last one even starts.
  have earlier : other.span.stop.offset ≤ statement.span.stop.offset := by
    rcases List.mem_append.1 child with before | same
    · have := (List.pairwise_append.1 read.inOrder).2.2 other before statement (by simp)
      unfold Statement.Before at this
      omega
    · exact (List.mem_singleton.1 same) ▸ Nat.le_refl _
  refine ⟨lies.tree.nested, _, _, begins', ordered', earlier, ?_⟩
  rw [Statement.spanTree_span]
  exact equal'

end Reads

/-- A label ends with its last statement, or else with its head. -/
theorem label_lies {head : LabelHead} {statements : List Statement} {cursor : Cursor}
    {begins middle there line : Nat} (inside : AllLie lines middle there head.spanTrees)
    (before : start ≤ begins) (ordered : begins ≤ middle) (longer : middle ≤ there)
    (four : there ≤ line) (read : Reads lines line stop (statements, cursor))
    (left : cursor.upcoming ≠ [] → there < line) :
    let ends := match statements.getLast? with
      | some last => last.span.stop
      | none => lines.positionAt there
    (Statement.label head statements ⟨lines.positionAt begins, ends⟩).Lies lines start stop ∧
      (cursor.upcoming ≠ [] → ends.offset < stop) := by
  intro ends
  have five := read.further
  have size := read.along.inside
  -- All the body lies in front of the label's end, and a line end lies behind it if anything does.
  have place : ∃ last, there ≤ last ∧ last ≤ stop ∧ ends = lines.positionAt last ∧
      AllLie lines line last (Statement.spanTrees statements) ∧
      (cursor.upcoming ≠ [] → last < stop) := by
    unfold ends
    cases found : statements.getLast? with
    | none =>
        obtain rfl := List.getLast?_eq_none_iff.1 found
        exact ⟨there, Nat.le_refl _, by omega, rfl, .nil,
          fun more => Nat.lt_of_lt_of_le (left more) five⟩
    | some statement =>
        obtain ⟨last, later, earlier, equal, trees, further⟩ := read.ends_last found
        exact ⟨last, by omega, earlier, equal, trees, further⟩
  obtain ⟨last, later, earlier, equal, trees, further⟩ := place
  refine ⟨⟨?_, fun depth node member => ?_⟩, fun more => ?_⟩
  · rw [equal]
    exact .node (.append (inside.mono ordered later) (trees.mono (by omega) (Nat.le_refl _)))
      before (by omega) earlier
  · rcases List.mem_cons.1 member with rfl | below
    · exact read.inOrder
    · obtain ⟨statement, child, found⟩ := Statement.mem_nodesOfAll.1 below
      exact (read.lie statement child).siblings _ node found
  · have := further more
    rw [equal, LineMap.positionAt_offset]
    omega

/-- Bodies that are read in order wherever the cursor stands. -/
def BodiesLie (lines : LineMap) (bodies : BodyReader) : Prop :=
  ∀ indent start cursor, Cursor.Along lines start cursor →
    ∃ stop, Reads lines start stop (bodies.read indent cursor)

theorem labelWith_makes {bodies : BodyReader} (reads : BodiesLie lines bodies)
    {cursor : Cursor} (along : cursor.Along lines start) :
    Makes lines start ((labelWith bodies).parse cursor) := by
  refine .bind (.token _) (Nat.le_refl _) (fun head middle behind one along taken => ?_) along
  refine .bind labelHead_moves one (fun parts here behind two along inside => ?_) along
  obtain ⟨begins, later, ordered, equal⟩ := taken
  have at_ : head.start = lines.positionAt begins := congrArg Span.start equal
  rw [at_]
  refine .bind (.spanFrom (by omega)) (by omega)
    (fun headSpan there behind three along same => ?_) along
  obtain ⟨line, four, ended, left⟩ := along.expectEndOfLine
  obtain ⟨stop, read⟩ := reads (lines.positionAt begins).column _ _ ended
  have five := read.further
  refine ⟨stop, by omega, read.along, ?_⟩
  rintro _ ⟨⟩
  have labelled := label_lies (inside.mono (Nat.le_refl _) three) later
    (Nat.le_of_lt ordered) (Nat.le_trans two three) four read
    fun more => left fun empty => more (List.suffix_nil.1 (empty ▸ bodies.suffix _ _))
  subst same
  exact ⟨labelled.1, fun _ => labelled.2⟩

/-! ## Lines and blocks -/

theorem line_inOrder {bodies : BodyReader} (reads : BodiesLie lines bodies) {cursor : Cursor}
    (along : cursor.Along lines start) :
    ∃ stop, Reads lines start stop ((line bodies cursor).1.toList, (line bodies cursor).2) := by
  have makes : Makes lines start ((statementWith bodies).parse cursor) := by
    cases found : (statementForms bodies).find? (·.starts cursor) with
    | none =>
        rw [statementWith, Rule.choice_none found]
        exact ⟨start, Nat.le_refl _, along.recordUnexpected, by simp⟩
    | some rule =>
        rw [statementWith, Rule.choice_some found]
        have member := List.mem_of_find?_eq_some found
        simp only [statementForms, List.mem_cons, List.not_mem_nil, or_false] at member
        rcases member with rfl | rfl | rfl | rfl | rfl | rfl | rfl | rfl | rfl
        · exact define_places.makes along
        · exact defaultValue_places.makes along
        · exact labelWith_makes reads along
        · exact jump_places.makes along
        · exact call_places.makes along
        · exact return_places.makes along
        · exact pass_places.makes along
        · exact pause_places.makes along
        · exact pythonLine_places.makes along
  obtain ⟨stop, further, behind, made⟩ := makes
  unfold line
  dsimp only
  split
  · split
    · next statement after equal =>
        rw [equal] at behind made
        obtain ⟨lies, left⟩ := made statement rfl
        split
        · next label =>
            refine ⟨stop, further, behind, by simpa using lies, by simp, fun more => ?_⟩
            simpa using left label more
        · obtain ⟨line, longer, ended, past⟩ := behind.expectEndOfLine
          have size := behind.inside
          have ends := (lies.place size).2.2.1
          refine ⟨line, by omega, ended, ?_, by simp, fun more => ?_⟩
          · simpa using lies.mono (Nat.le_refl _) longer
          · simp only [Option.toList_some, List.mem_singleton, forall_eq]
            have := past more
            omega
    · next after equal =>
        rw [equal] at behind
        exact ⟨stop, .nil further behind⟩
  · obtain ⟨stop, further, skipped⟩ := along.skipLine
    exact ⟨stop, .nil further skipped⟩

theorem behindLine_along (before : Cursor) {behind : Cursor} (along : behind.Along lines start) :
    ∃ stop, start ≤ stop ∧ (behindLine before behind).Along lines stop ∧
      (behindLine before behind).upcoming <:+ behind.upcoming := by
  unfold behindLine
  split
  · exact ⟨start, Nat.le_refl _, along, List.suffix_refl _⟩
  · obtain ⟨stop, further, moved, -⟩ := along.advance
    refine ⟨stop, further, moved, ?_⟩
    rw [Cursor.advance_upcoming]
    exact List.tail_suffix _

private theorem blockWith_nil (bodies : BodyReader) (parent : Option Nat) {cursor : Cursor}
    (empty : cursor.upcoming = []) : (blockWith bodies parent cursor).1 = [] := by
  have start : cursor.skipEmptyLines = cursor := by
    rw [Cursor.skipEmptyLines, empty]
    rfl
  rw [blockWith, start]
  simp [goesOn, Cursor.hasNext, empty]

theorem blockWith_inOrder {bodies : BodyReader} (reads : BodiesLie lines bodies)
    (parent : Option Nat) {cursor : Cursor} (along : cursor.Along lines start) :
    ∃ stop, Reads lines start stop (blockWith bodies parent cursor) := by
  fun_induction blockWith bodies parent cursor generalizing start with
  | case1 cursor begin more =>
      rename_i ih
      obtain ⟨here, one, skipped⟩ := along.skipEmptyLines
      obtain ⟨middle, read⟩ := line_inOrder reads skipped
      -- The lines behind are read from where the cursor stands behind this one.
      obtain ⟨next, three, moved, suffix_⟩ := behindLine_along begin read.along
      obtain ⟨stop, later⟩ := ih moved
      refine ⟨stop, (Reads.append read later three ?_ fun empty => ?_).mono one⟩
      · exact (blockWith_suffix bodies parent _).trans suffix_
      · exact blockWith_nil bodies parent (List.suffix_nil.1 (empty ▸ suffix_))
  | case2 =>
      obtain ⟨stop, further, skipped⟩ := along.skipEmptyLines
      exact ⟨stop, .nil further skipped⟩

theorem bodiesWithin_inOrder (levels : Nat) : BodiesLie lines (bodiesWithin levels) := by
  induction levels with
  | zero =>
      intro indent start cursor along
      obtain ⟨stop, further, skipped⟩ := along.recordUnexpected.skipBlock indent
      exact ⟨stop, .nil further skipped⟩
  | succ levels ih =>
      intro indent start cursor along
      have entered := along.enterNested
      simp only [bodiesWithin]
      rcases equal : cursor.enterNested with ⟨enters, inside⟩
      rw [equal] at entered
      cases enters with
      | false =>
          obtain ⟨stop, further, skipped⟩ := entered.skipBlock indent
          exact ⟨stop, .nil further skipped⟩
      | true =>
          obtain ⟨stop, read⟩ := blockWith_inOrder ih (some indent) entered
          exact ⟨stop, read.further, read.along.atDepth _, read.lie, read.inOrder, read.behind⟩

end Grammar

/-! ## Documents -/

namespace Document

open Text

theorem ofText_span (source : List Char) :
    (ofText source).1.span = (LineMap.ofText source).spanAt 0 (byteLength source) := by
  have tile := Token.ofText_tile source
  have placed := Token.ofText_placed source
  unfold ofText ofTokens
  dsimp only
  generalize Token.ofText source = tokens at tile placed
  cases first : tokens.head? with
  | none =>
      obtain rfl := List.head?_eq_none_iff.1 first
      have size : 0 = byteLength source := tile
      have origin := LineMap.positionAt_byteLength [] source
      rw [← size]
      unfold LineMap.spanAt
      exact congrArg Span.emptyAt origin.symm
  | some token =>
      obtain ⟨rest, rfl⟩ := List.head?_eq_some_iff.1 first
      have nonempty : token :: rest ≠ [] := by simp
      have found := List.getLast?_eq_some_getLast nonempty
      have ends := tile.last found
      rw [found]
      have start := congrArg Span.start (placed token List.mem_cons_self).positions
      have stop := congrArg Span.stop (placed _ (List.getLast_mem nonempty)).positions
      rw [tile.1] at start
      rw [ends] at stop
      exact congr (congrArg Span.mk start) stop

/-- The nodes of a document have located spans, nested as the nodes are and inside the document's;
statements stand one behind the other, each starting behind the end of the one before; and the
expressions met between the start and the end of a label lie within it.  Statements that could be
read in part only and labels that lost their body are no exception. -/
theorem ofText_located (source : List Char) :
    let document := (ofText source).1
    document.span = (LineMap.ofText source).spanAt 0 (byteLength source) ∧
      document.spanTree.Nested (LineMap.ofText source) ∧
      (∀ span ∈ document.spanTree.spans, span.Within document.span) ∧
      document.statements.Pairwise Statement.Before ∧
      (∀ node ∈ document.nodes, node.2.children.Pairwise Statement.Before) ∧
      ∀ before expression after, document.walk = before ++ .expression expression :: after →
        ∀ span ∈ before.foldl Encounter.openLabels [], expression.span.Within span := by
  intro document
  have origin : Position.origin = (LineMap.ofText source).positionAt 0 :=
    (LineMap.positionAt_byteLength [] source).symm
  have along : (Cursor.ofTokens source (Token.ofText source)).Along (LineMap.ofText source) 0 :=
    ⟨(Token.ofText_inOrder source).filter _, origin, Nat.zero_le _⟩
  obtain ⟨stop, read⟩ := blockWith_inOrder (bodiesWithin_inOrder _) none along
  have span := ofText_span source
  have nested : document.spanTree.Nested (LineMap.ofText source) := by
    unfold spanTree
    rw [show document.span = _ from span]
    refine (Lies.node (fun tree member => ?_) (Nat.le_refl _) (Nat.zero_le _)
      (Nat.le_refl _)).nested
    obtain ⟨statement, child, rfl⟩ := Statement.mem_spanTrees.1 member
    exact (read.lie statement child).tree.mono (Nat.le_refl _) read.along.inside
  refine ⟨span, nested, nested.within, read.inOrder, fun node member => ?_, ?_⟩
  · obtain ⟨statement, child, found⟩ := Statement.mem_nodesOfAll.1 member
    exact (read.lie statement child).siblings _ node found
  · intro before expression after split label opened
    exact ((walk_keeps nested).inside before expression after split).2 [] label opened
      |>.resolve_left (by simp)

end Document

end NovelScript
