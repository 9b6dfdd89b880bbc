import NovelScript.Proofs.Locations
import NovelScript.Proofs.NamePlaces

/-!
# Order of names

Between two names that a script defines or uses there is always a token that belongs to neither: a
keyword, a comma, a parenthesis or an equals sign.  So the names of a document lie one behind the
other and no two of them touch, whatever the script says.
-/

namespace NovelScript

open Parse Grammar SpanTree

variable {lines : LineMap} {start stop first last before : Nat}

/-! ## Spans that do not touch -/

/-- Spans one behind the other, all behind `start` and up to `stop`, with something between any two
and in front of the first. -/
inductive Strung (lines : LineMap) : Nat → Nat → List Span → Prop
  | nil {start stop : Nat} : Strung lines start stop []
  | cons {start first last stop : Nat} {rest : List Span} (begins : start < first)
      (ordered : first ≤ last) (ends : last ≤ stop) (behind : Strung lines last stop rest) :
      Strung lines start stop (lines.spanAt first last :: rest)

namespace Strung

variable {spans others : List Span}

theorem mono (strung : Strung lines first last spans) (begins : start ≤ first)
    (ends : last ≤ stop) : Strung lines start stop spans := by
  induction strung generalizing start with
  | nil => exact .nil
  | cons later ordered earlier behind ih =>
      exact .cons (by omega) ordered (by omega) (ih (Nat.le_refl _) ends)

theorem append (one : Strung lines start first spans) (two : Strung lines last stop others)
    (place : start ≤ last ∧ first ≤ last ∧ first ≤ stop) :
    Strung lines start stop (spans ++ others) := by
  induction one with
  | nil => exact two.mono place.1 (Nat.le_refl _)
  | cons later ordered earlier behind ih =>
      exact .cons later ordered (by omega) (ih (by omega))

theorem option {value : Option α} {names : α → List Span}
    (strung : ∀ one ∈ value, Strung lines start stop (names one)) :
    Strung lines start stop (value.toList.flatMap names) := by
  cases value with
  | none => exact .nil
  | some one =>
      rw [Option.toList_some, List.flatMap_singleton]
      exact strung one rfl

/-- A name that lies behind `before`. -/
theorem leaf {span : Span} (lies : (leaf span).Lies lines start stop) (behind : before < start) :
    Strung lines before stop [span] := by
  obtain ⟨first, last, begins, ordered, ends, equal⟩ := lies.place
  rw [show span = lines.spanAt first last from equal]
  exact .cons (by omega) ordered ends .nil

theorem target {target : Option Identifier}
    (lies : ∀ one ∈ target, (SpanTree.leaf one.span).Lies lines start stop)
    (behind : before < start) :
    Strung lines before stop (target.toList.map Identifier.span) := by
  cases target with
  | none => exact .nil
  | some one => exact leaf (lies one rfl) behind

theorem assignment {assignment : Option Assignment}
    (strung : ∀ one ∈ assignment, Strung lines before stop (Assignment.names (some one))) :
    Strung lines before stop (Assignment.names assignment) := by
  cases assignment with
  | none => exact .nil
  | some one => exact strung one rfl

/-- Each ends in front of where those behind it start. -/
theorem pairwise (strung : Strung lines start stop spans) (inside : stop ≤ lines.size) :
    spans.Pairwise (fun left right => left.stop.offset < right.start.offset) ∧
      ∀ span ∈ spans, start < span.start.offset ∧ span.start.offset ≤ span.stop.offset := by
  induction strung with
  | nil => simp
  | @cons start first last stop rest begins ordered ends behind ih =>
      obtain ⟨apart, later⟩ := ih inside
      have starts : (lines.spanAt first last).start.offset = first := by
        rw [LineMap.spanAt, LineMap.positionAt_offset]
        omega
      have stops : (lines.spanAt first last).stop.offset = last := by
        rw [LineMap.spanAt, LineMap.positionAt_offset]
        omega
      refine ⟨List.pairwise_cons.2 ⟨fun span member => ?_, apart⟩, fun span member => ?_⟩
      · rw [stops]
        exact (later span member).1
      · rcases List.mem_cons.1 member with rfl | further
        · rw [starts, stops]
          exact ⟨begins, ordered⟩
        · have := later span further
          omega

end Strung

/-! ## Names in expressions -/

theorem SpanTree.Lies.child {span : Span} {trees : List SpanTree} {tree : SpanTree}
    (lies : (SpanTree.node span trees).Lies lines start stop) (inside : stop ≤ lines.size)
    (member : tree ∈ trees) : tree.Lies lines start stop := by
  obtain ⟨nested, within⟩ := lies.nested.inside tree member
  obtain ⟨first, last, begins, ordered, ends, equal⟩ := lies.place
  have self := nested.located.within_self
  rw [show span = lines.spanAt first last from equal] at within
  simp only [Span.Within, Span.contains, LineMap.spanAt, LineMap.positionAt_offset,
    Bool.and_eq_true, decide_eq_true_eq] at within self
  exact ⟨nested, _, _, by omega, by omega, by omega, nested.located.positions⟩

theorem Expression.names_strung {expression : Expression}
    (lies : expression.spanTree.Lies lines start stop) (inside : stop ≤ lines.size)
    (behind : before < start) : Strung lines before stop expression.names := by
  induction expression with
  | literal _ | python _ => exact .nil
  | reference name => exact .leaf lies behind
  | parenthesized inner span ih => exact ih (lies.child inside (by simp))
  | assignment left operator right span _ ih => exact ih (lies.child inside (by simp))

theorem Expression.reference_strung {left : Expression}
    (lies : left.spanTree.Lies lines start stop) (behind : before < start) :
    Strung lines before stop (left.reference?.toList.map Reference.span) := by
  cases left with
  | reference name => exact .leaf lies behind
  | _ => exact .nil

namespace Parse.Moves

variable {outcome : Nat → α → Prop}

/-- What a parse makes lies inside the text. -/
theorem inside {parse : Parse α} (moves : Moves lines start outcome parse) :
    Moves lines start (fun stop value => stop ≤ lines.size ∧ outcome stop value) parse := by
  intro cursor along
  obtain ⟨stop, further, behind, made⟩ := moves cursor along
  exact ⟨stop, further, behind, fun value found => ⟨behind.inside, made value found⟩⟩

theorem anySpan (position : Position) :
    Moves lines start (fun _ _ => True) (Parse.spanFrom position) :=
  fun _ along => ⟨start, Nat.le_refl _, along, fun _ _ => trivial⟩

/-! ## Lists -/

variable {item : Parse α} {names : α → List Span}

private theorem separated_strung (advances : item.Advances)
    (moves : ∀ {before start}, before < start →
      Moves lines start (fun stop value => Strung lines before stop (names value)) item)
    (cursor : Cursor) (along : cursor.Along lines start) (behind : before < start) :
    ∃ stop, start ≤ stop ∧ (Parse.separated item advances cursor).2.Along lines stop ∧
      Strung lines before stop ((Parse.separated item advances cursor).1.flatMap names) := by
  fun_induction Parse.separated item advances cursor generalizing start before with
  | case1 cursor after found =>
      obtain ⟨stop, further, ended, -⟩ := moves behind cursor along
      rw [found] at ended
      exact ⟨stop, further, ended, .nil⟩
  | case2 cursor value after found tested values last_ equal ih =>
      obtain ⟨middle, one, went, made⟩ := moves behind cursor along
      rw [found] at went made
      -- The comma keeps the item in front of it and those behind it apart.
      obtain ⟨comma, rest, next, -⟩ := Cursor.next_of_peek tested
      obtain ⟨beyond, spans, passed⟩ := went.shift next
      have longer := spans.lt
      simp only [Cursor.advance_eq next] at ih equal
      obtain ⟨stop, three, ended, strung⟩ := ih passed longer
      rw [equal] at ended strung
      refine ⟨stop, by omega, ended, ?_⟩
      rw [List.flatMap_cons]
      exact (made value rfl).append strung (by omega)
  | case3 cursor value after found tested =>
      obtain ⟨middle, one, went, made⟩ := moves behind cursor along
      rw [found] at went made
      obtain ⟨stop, two, ended, -⟩ := token (.punctuation .closeParen) after went
      refine ⟨stop, by omega, ended, ?_⟩
      rw [List.flatMap_singleton]
      exact (made value rfl).mono (Nat.le_refl _) two

theorem parenthesizedList_strung (advances : item.Advances)
    (moves : ∀ {before start}, before < start →
      Moves lines start (fun stop value => Strung lines before stop (names value)) item) :
    Moves lines start (fun stop values => Strung lines start stop (values.flatMap names))
      (Parse.parenthesizedList item advances) := by
  refine .bind (tokenIf _) fun opening middle one taken => ?_
  cases opening with
  | none => exact .pure .nil
  | some opening =>
      have longer := (taken opening rfl).lt
      refine .bind (tokenIf _) fun closing next two _ => ?_
      cases closing with
      | some _ => exact .pure .nil
      | none =>
          intro cursor along
          obtain ⟨stop, further, ended, made⟩ :=
            separated_strung advances moves cursor along (Nat.lt_of_lt_of_le longer two)
          refine ⟨stop, further, ended, ?_⟩
          rintro _ ⟨⟩
          exact made

end Parse.Moves

namespace Grammar

theorem expression_strung (behind : before < start) :
    Moves lines start (fun stop expression => Strung lines before stop expression.names)
      expression.parse :=
  .mono (.inside (expression_places start)) fun _ _ _ made =>
    Expression.names_strung made.2 made.1 behind

theorem python_names :
    Moves lines start (fun _ expression => expression.names = []) python.parse :=
  .bind pythonCode_moves fun _ _ _ _ => .pure rfl

/-! ## Names in statements -/

theorem assignmentAfter_strung (operators : List Operator) {left : Expression}
    (named : Strung lines before start (left.reference?.toList.map Reference.span)) :
    Moves lines start (fun stop assignment =>
      Strung lines before stop (Assignment.names (some assignment)))
      (assignmentAfter operators python left) := by
  refine .bind (.anyToken _) fun token middle one taken => ?_
  split
  · refine .bind (.require python_names) fun right stop two none => .pure ?_
    have names (assignment : Assignment) (same : assignment.right = right) :
        Assignment.names (some assignment) =
          assignment.left.reference?.toList.map Reference.span := by
      simp [Assignment.names, Assignment.target?, same, none]
    rw [names _ rfl]
    exact named.mono (Nat.le_refl _) (by omega)
  · exact .fail

theorem definition_strung (behind : before < start) :
    Moves lines start (fun stop parts => Strung lines before stop (Assignment.names parts.2))
      definition := by
  refine .bind (.attempt (.require (reference_places start))) fun left middle one lefts => ?_
  cases left with
  | none => exact .pure .nil
  | some left =>
      have named := Expression.reference_strung (lefts left rfl) behind
      refine .bind (.tokenIf _) fun opening here two _ => ?_
      cases opening with
      | none =>
          exact .bind (.attempt (assignmentAfter_strung _ (named.mono (Nat.le_refl _) two)))
            fun _ _ _ made => .pure (.assignment made)
      | some _ =>
          refine .bind (.attempt pythonCode_moves) fun index there three _ => ?_
          cases index with
          | none => exact .pure .nil
          | some index =>
              refine .bind (.attempt (.token _)) fun closing next four _ => ?_
              cases closing with
              | none => exact .pure .nil
              | some _ =>
                  have named := named.mono (Nat.le_refl _) (show middle ≤ next by omega)
                  exact .bind (.attempt (assignmentAfter_strung _ named))
                    fun _ _ _ made => .pure (.assignment made)

/-- A rule whose statements have their names behind where the rule starts. -/
def Strings (lines : LineMap) (rule : Rule Statement) : Prop :=
  ∀ start, Moves lines start (fun stop statement => Strung lines start stop statement.names)
    rule.parse

theorem define_strings : Strings lines define := by
  intro start
  refine .bind (.token _) fun head middle one taken => ?_
  refine .bind (priority_moves taken) fun priority here two _ => ?_
  have longer := Nat.lt_of_lt_of_le taken.lt two
  refine .bind (definition_strung longer) fun parts there three made => ?_
  refine .bind (.anySpan _) fun span stop four _ => .pure ?_
  exact made.mono (Nat.le_refl _) four

theorem defaultValue_strings : Strings lines defaultValue := by
  intro start
  refine .bind (.token _) fun head middle one taken => ?_
  refine .bind (priority_moves taken) fun priority here two _ => ?_
  have longer := Nat.lt_of_lt_of_le taken.lt two
  have assigned : Moves lines here
      (fun stop assignment => Strung lines start stop (Assignment.names (some assignment)))
      (assignment reference [.assign] python).parse :=
    .bind (.require (reference_places here)) fun left _ _ lies =>
      assignmentAfter_strung _ (Expression.reference_strung lies longer)
  refine .bind (.attempt (.require assigned)) fun assignment there three made => ?_
  refine .bind (.anySpan _) fun span stop four _ => .pure ?_
  exact (Strung.assignment made).mono (Nat.le_refl _) four

theorem jump_strings : Strings lines jump := by
  intro start
  refine .bind (.token _) fun head middle one taken => ?_
  refine .bind (.tokenIf _) fun computed here two _ => ?_
  cases computed with
  | some _ =>
      refine .bind (.attempt pythonCode_moves) fun code there three _ => ?_
      exact .bind (.anySpan _) fun span stop four _ => .pure .nil
  | none =>
      have longer := Nat.lt_of_lt_of_le taken.lt two
      refine .bind (.attempt nameIdentifier_moves) fun target there three made => ?_
      refine .bind (.anySpan _) fun span stop four _ => .pure ?_
      exact (Strung.target made longer).mono (Nat.le_refl _) four

theorem callTail_strung :
    Moves lines start (fun stop parts =>
      Strung lines start stop (parts.1.flatMap Expression.names)) callTail := by
  refine .bind (.parenthesizedList_strung _ fun behind => .require (expression_strung behind))
    fun arguments middle one inside => ?_
  refine .bind (.tokenIf _) fun word here two _ => ?_
  cases word with
  | some _ =>
      refine .bind (.attempt nameIdentifier_moves) fun site stop three _ => .pure ?_
      exact inside.mono (Nat.le_refl _) (by omega)
  | none => exact .pure (inside.mono (Nat.le_refl _) two)

theorem call_strings : Strings lines call := by
  intro start
  refine .bind (.token _) fun head middle one taken => ?_
  refine .bind (.tokenIf _) fun computed here two _ => ?_
  cases computed with
  | some _ =>
      refine .bind (.attempt pythonCode_moves) fun code there three _ => ?_
      exact .bind (.anySpan _) fun span stop four _ => .pure .nil
  | none =>
      refine .bind (.tokenIf _) fun shown there three _ => ?_
      cases shown with
      | some _ =>
          refine .bind (.attempt nameIdentifier_moves) fun screen next four _ => ?_
          refine .bind (.move fun _ along => along.skipRestOfLine) fun _ behind five _ => ?_
          exact .bind (.anySpan _) fun span stop six _ => .pure .nil
      | none =>
          have longer : start < there := by
            have := taken.lt
            omega
          refine .bind (.attempt nameIdentifier_moves) fun target next four made => ?_
          cases target with
          | none => exact .bind (.anySpan _) fun span stop five _ => .pure .nil
          | some target =>
              have named := Strung.target made longer
              refine .bind callTail_strung fun parts behind five inside => ?_
              refine .bind (.anySpan _) fun span stop six _ => .pure ?_
              exact named.append (inside.mono (Nat.le_refl _) six) (by omega)

/-- A statement of a keyword and an expression, which may be absent. -/
private theorem headed_strings {kind : Kind} {make : Option Expression → Span → Statement}
    (names : ∀ value span, (make value span).names = value.toList.flatMap Expression.names) :
    Strings lines (.startingAt kind do
      let head ← token kind
      let value ← expression.optional
      pure (make value (← spanFrom head.start))) := by
  intro start
  refine .bind (.token _) fun head middle one taken => ?_
  refine .bind (.optional (expression_strung taken.lt)) fun value here two made => ?_
  refine .bind (.anySpan _) fun span stop three _ => .pure ?_
  rw [names]
  exact (Strung.option made).mono (Nat.le_refl _) three

theorem return_strings : Strings lines «return» := headed_strings fun _ _ => rfl

theorem pause_strings : Strings lines pause := headed_strings fun _ _ => rfl

theorem pass_strings : Strings lines pass :=
  fun _ => .bind (.token _) fun _ _ _ _ => .pure .nil

theorem pythonLine_strings : Strings lines pythonLine := by
  intro start
  refine .bind (.token _) fun head middle one _ => ?_
  refine .bind (.attempt pythonCode_moves) fun code here two _ => ?_
  exact .bind (.anySpan _) fun span stop three _ => .pure .nil

/-! ## Labels -/

theorem parameter_strung (behind : before < start) :
    Moves lines start (fun stop parameter => Strung lines before stop parameter.names)
      parameter := by
  refine .bind (.token _) fun token middle one taken => ?_
  refine .bind (identifier_moves taken (Nat.le_refl _)) fun name here two lies => ?_
  have named := Strung.leaf lies behind
  refine .bind (.tokenIf _) fun assigned there three written => ?_
  cases assigned with
  | some assign =>
      -- The equals sign stands between the name and what it defaults to.
      have longer := (written assign rfl).lt
      refine .bind (.attempt (.require (expression_strung longer))) fun value stop four made =>
        .pure ?_
      exact named.append (Strung.option made) (by omega)
  | none => exact .pure (named.mono (Nat.le_refl _) three)

theorem labelHead_strung (behind : before < start) :
    Moves lines start (fun stop head => Strung lines before stop head.names) labelHead := by
  refine .bind (.attempt nameIdentifier_moves) fun name middle one named => ?_
  refine .bind (.parenthesizedList_strung _ parameter_strung) fun parameters here two inside => ?_
  refine .bind (.attempt (.token _)) fun colon stop three _ => .pure ?_
  exact (Strung.target named behind).append (inside.mono (Nat.le_refl _) three) (by omega)

/-- Statements that were read from `start` on, with their names in order up to where the cursor
behind them stands. -/
def ReadsNames (lines : LineMap) (start : Nat) (read : List Statement × Cursor) : Prop :=
  ∃ stop, start ≤ stop ∧ read.2.Along lines stop ∧
    Strung lines start stop (Statement.namesOfAll read.1)

theorem ReadsNames.nil {cursor : Cursor}
    (moved : ∃ stop, start ≤ stop ∧ cursor.Along lines stop) :
    ReadsNames lines start ([], cursor) := by
  obtain ⟨stop, further, along⟩ := moved
  exact ⟨stop, further, along, .nil⟩

/-- Bodies whose names are in order wherever the cursor stands. -/
def BodiesString (lines : LineMap) (bodies : BodyReader) : Prop :=
  ∀ indent start cursor, Cursor.Along lines start cursor →
    ReadsNames lines start (bodies.read indent cursor)

theorem labelWith_strings {bodies : BodyReader} (reads : BodiesString lines bodies) :
    Strings lines (labelWith bodies) := by
  intro start
  refine .bind (.token _) fun head middle one taken => ?_
  refine .bind (labelHead_strung taken.lt) fun parts here two named => ?_
  refine .bind (.anySpan _) fun span there three _ => ?_
  refine .bind (.move fun _ along => ?_) fun _ line four _ => ?_
  · obtain ⟨stop, further, ended, -⟩ := along.expectEndOfLine
    exact ⟨stop, further, ended⟩
  have body : Moves lines line
      (fun stop statements => Strung lines line stop (Statement.namesOfAll statements))
      (fun cursor => (some (bodies.read head.start.column cursor).1,
        (bodies.read head.start.column cursor).2)) := by
    intro cursor along
    obtain ⟨stop, further, ended, strung⟩ := reads head.start.column line cursor along
    refine ⟨stop, further, ended, ?_⟩
    rintro _ ⟨⟩
    exact strung
  refine .bind body fun statements stop five inside => .pure ?_
  exact named.append inside (by omega)

theorem statementWith_strings {bodies : BodyReader} (reads : BodiesString lines bodies) :
    Strings lines (statementWith bodies) := by
  refine fun start => .choice fun rule member => ?_
  simp only [statementForms, List.mem_cons, List.not_mem_nil, or_false] at member
  rcases member with rfl | rfl | rfl | rfl | rfl | rfl | rfl | rfl | rfl
  · exact define_strings start
  · exact defaultValue_strings start
  · exact labelWith_strings reads start
  · exact jump_strings start
  · exact call_strings start
  · exact return_strings start
  · exact pass_strings start
  · exact pause_strings start
  · exact pythonLine_strings start

/-! ## Lines and blocks -/

/-- The step of a line. -/
theorem line_readsNames {bodies : BodyReader} (reads : BodiesString lines bodies)
    {cursor : Cursor} (along : cursor.Along lines start) :
    ReadsNames lines start ((line bodies cursor).1.toList, (line bodies cursor).2) := by
  obtain ⟨stop, further, behind, made⟩ := statementWith_strings reads start cursor along
  unfold line
  dsimp only
  split
  · split
    · next statement after equal =>
        rw [equal] at behind made
        have names : Strung lines start stop (Statement.namesOfAll [statement]) := by
          simpa [Statement.namesOfAll] using made statement rfl
        split
        · exact ⟨stop, further, behind, names⟩
        · obtain ⟨line, longer, ended, -⟩ := behind.expectEndOfLine
          exact ⟨line, by omega, ended, names.mono (Nat.le_refl _) longer⟩
    · next after equal =>
        rw [equal] at behind
        exact .nil ⟨stop, further, behind⟩
  · exact .nil along.skipLine

/-- The run over a block. -/
theorem blockWith_readsNames {bodies : BodyReader} (reads : BodiesString lines bodies)
    (parent : Option Nat) {cursor : Cursor} (along : cursor.Along lines start) :
    ReadsNames lines start (blockWith bodies parent cursor) := by
  fun_induction blockWith bodies parent cursor generalizing start with
  | case1 cursor begin more =>
      rename_i ih
      obtain ⟨here, one, skipped⟩ := along.skipEmptyLines
      obtain ⟨middle, two, passed, names⟩ := line_readsNames reads skipped
      obtain ⟨next, three, moved, -⟩ := behindLine_along begin passed
      obtain ⟨stop, four, ended, later⟩ := ih moved
      refine ⟨stop, by omega, ended, ?_⟩
      rw [Statement.namesOfAll_append]
      exact (names.mono one (Nat.le_refl _)).append later (by omega)
  | case2 => exact .nil along.skipEmptyLines

theorem bodiesWithin_string (levels : Nat) : BodiesString lines (bodiesWithin levels) := by
  induction levels with
  | zero => exact fun indent start cursor along => .nil (along.recordUnexpected.skipBlock indent)
  | succ levels ih =>
      intro indent start cursor along
      have entered := along.enterNested
      simp only [bodiesWithin]
      rcases equal : cursor.enterNested with ⟨enters, inside⟩
      rw [equal] at entered
      cases enters with
      | false => exact .nil (entered.skipBlock indent)
      | true =>
          obtain ⟨stop, further, ended, names⟩ := blockWith_readsNames ih (some indent) entered
          exact ⟨stop, further, ended.atDepth _, names⟩

end Grammar

/-- Two spans with at least a byte between them, so that no position is on both. -/
def Span.Apart (one two : Span) : Prop :=
  one.stop.offset < two.start.offset ∨ two.stop.offset < one.start.offset

theorem Span.Apart.not_both {one two : Span} (apart : one.Apart two) {position : Position}
    (onOne : one.contains position = true) : ¬ two.contains position = true := by
  simp only [contains, Bool.and_eq_true, decide_eq_true_eq] at onOne ⊢
  unfold Apart at apart
  omega

/-- The names of a document do not touch. -/
theorem Document.names_apart (source : List Char) :
    (Statement.namesOfAll (ofText source).1.statements).Pairwise Span.Apart ∧
      ∀ span ∈ Statement.namesOfAll (ofText source).1.statements,
        span.start.offset ≤ span.stop.offset := by
  have origin : Position.origin = (LineMap.ofText source).positionAt 0 :=
    (LineMap.positionAt_byteLength [] source).symm
  have along : (Cursor.ofTokens source (Token.ofText source)).Along (LineMap.ofText source) 0 :=
    ⟨(Token.ofText_inOrder source).filter _, origin, Nat.zero_le _⟩
  obtain ⟨stop, -, ended, names⟩ := blockWith_readsNames (bodiesWithin_string _) none along
  obtain ⟨inOrder, each⟩ := names.pairwise ended.inside
  exact ⟨inOrder.imp .inl, fun span member => (each span member).2⟩

end NovelScript
