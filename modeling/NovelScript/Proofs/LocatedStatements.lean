import NovelScript.Proofs.LocatedParses

/-!
# Where statements lie

Every expression and every statement but a label lies between the place where its rule starts and
the place where it stops, also if it could be read in part only.
-/

namespace NovelScript

open Parse Grammar SpanTree

variable {lines : LineMap} {start stop first last : Nat}

namespace Grammar

/-! ## Expressions -/

/-- A rule whose expressions lie between where it starts and where it stops. -/
def Places (lines : LineMap) (rule : Rule Expression) : Prop :=
  ∀ start, Moves lines start (fun stop expression => expression.spanTree.Lies lines start stop)
    rule.parse

theorem literal_places : Places lines literal := by
  intro start
  refine .look fun cursor => ?_
  split
  · exact .fail
  · refine .bind (.token _) fun token middle one taken => ?_
    refine .bind (.text _) fun text stop two _ => ?_
    exact .pure (taken.lies.mono (Nat.le_refl _) two)

theorem attributes_along (path : String) {cursor : Cursor} (tokens : List Token)
    (along : cursor.Along lines start) (equal : cursor.upcoming = tokens) :
    ∃ stop, start ≤ stop ∧ (attributes path cursor tokens).2.Along lines stop := by
  fun_induction attributes path cursor tokens generalizing start with
  | case1 => exact ⟨start, Nat.le_refl _, along⟩
  | case2 path cursor dot isDot | case4 path cursor dot isDot name rest notName =>
      obtain ⟨stop, spans, moved⟩ := along.shift equal
      exact ⟨stop, Nat.le_of_lt spans.lt, moved.record _ _⟩
  | case3 path cursor dot isDot name rest isName =>
      rename_i ih
      obtain ⟨middle, one, moved⟩ := along.shift equal
      obtain ⟨next, two, further⟩ := moved.shift rfl
      obtain ⟨stop, three, ended⟩ := ih further rfl
      exact ⟨stop, Nat.le_trans (Nat.le_of_lt (Nat.lt_trans one.lt two.lt)) three, ended⟩
  | case5 => exact ⟨start, Nat.le_refl _, along⟩

private theorem attributes_moves (path : String) :
    Moves lines start (fun _ _ => True) fun cursor => attributes path cursor cursor.upcoming := by
  intro cursor along
  obtain ⟨stop, further, behind⟩ := attributes_along path _ along rfl
  exact ⟨stop, further, behind, fun _ _ => trivial⟩

theorem reference_places : Places lines reference := by
  intro start
  refine .bind (.token _) fun first middle one taken => ?_
  refine .bind (.text _) fun path here two _ => ?_
  refine .bind (attributes_moves path) fun name next three _ => ?_
  refine .bind (.nodeFrom taken (by omega)) fun span stop four node => ?_
  exact .pure (node [] .nil)

theorem expressionOf_places {parenthesized : Rule Expression}
    (places : Places lines parenthesized) : Places lines (expressionOf parenthesized) := by
  refine fun start => .choice fun rule member => ?_
  simp only [expressionForms, List.mem_cons, List.not_mem_nil, or_false] at member
  rcases member with rfl | rfl | rfl
  · exact literal_places start
  · exact places start
  · exact reference_places start

theorem parenthesizedBody_moves {inner : Rule Expression} (places : Places lines inner) :
    Moves lines start (fun stop expression => expression.spanTree.Lies lines start stop)
      (parenthesizedBody inner) := by
  refine .bind (.token _) fun opening middle one taken => ?_
  refine .bind (.require (places middle)) fun inner next two lies => ?_
  refine .bind (.token _) fun closing behind three _ => ?_
  refine .bind (.nodeFrom taken (by omega)) fun span stop four node => ?_
  exact .pure (node _ (.cons (lies.mono (Nat.le_refl _) (by omega)) .nil))

theorem parenthesizedWithin_places (levels : Nat) : Places lines (parenthesizedWithin levels) := by
  induction levels with
  | zero =>
      intro start cursor along
      obtain ⟨stop, further, behind⟩ := along.recordUnexpected.skipRestOfLine
      exact ⟨stop, further, behind, by simp [parenthesizedWithin, Rule.startingAt]⟩
  | succ levels ih =>
      intro start cursor along
      have entered := along.enterNested
      simp only [parenthesizedWithin, Rule.startingAt]
      rcases equal : cursor.enterNested with ⟨enters, inside⟩
      rw [equal] at entered
      cases enters with
      | false =>
          obtain ⟨stop, further, behind⟩ := entered.skipRestOfLine
          exact ⟨stop, further, behind, by simp⟩
      | true =>
          obtain ⟨stop, further, behind, made⟩ :=
            parenthesizedBody_moves (expressionOf_places ih) inside entered
          exact ⟨stop, further, behind.atDepth _, made⟩

theorem parenthesized_places : Places lines parenthesized :=
  fun start cursor along => parenthesizedWithin_places cursor.levels start cursor along

theorem expression_places : Places lines expression :=
  expressionOf_places parenthesized_places

theorem pythonCode_moves :
    Moves lines start (fun stop code => (leaf code.span).Lies lines start stop) pythonCode := by
  refine .bind (.token _) fun token middle one taken => ?_
  refine .bind (.text _) fun text stop two _ => ?_
  exact .pure (taken.lies.mono (Nat.le_refl _) two)

theorem python_places : Places lines python :=
  fun _ => .bind pythonCode_moves fun _ _ _ lies => .pure lies

/-- An assignment goes from the start of its left side to the end of its right side. -/
theorem assignmentAfter_moves (operators : List Operator) {right : Rule Expression}
    (places : Places lines right) {left : Expression} (lies : left.spanTree.Lies lines first last)
    (behind : last ≤ start) :
    Moves lines start (fun stop assignment =>
      assignment.toExpression.spanTree.Lies lines first stop)
      (assignmentAfter operators right left) := by
  refine .bind (.anyToken _) fun token middle one taken => ?_
  split
  · refine .bind (.require (places middle)) fun right stop two made => ?_
    refine .pure ?_
    obtain ⟨begins, here, later, ordered, earlier, equal⟩ := lies.place
    obtain ⟨there, ends, later', ordered', earlier', equal'⟩ := made.place
    rw [Expression.spanTree_span] at equal equal'
    have span : (⟨left.span.start, right.span.stop⟩ : Span) = lines.spanAt begins ends := by
      rw [equal, equal']
      rfl
    have longer := taken.lt
    have inside : AllLie lines begins ends [left.spanTree, right.spanTree] := by
      refine .cons ⟨lies.nested, begins, here, Nat.le_refl _, ordered, by omega, ?_⟩
        (.cons ⟨made.nested, there, ends, by omega, ordered', Nat.le_refl _, ?_⟩ .nil)
      · rw [Expression.spanTree_span, equal]
      · rw [Expression.spanTree_span, equal']
    simp only [Assignment.toExpression, span, Expression.spanTree]
    exact .node inside later (by omega) earlier'
  · exact .fail

theorem assignment_moves (operators : List Operator) {left right : Rule Expression}
    (leftPlaces : Places lines left) (rightPlaces : Places lines right) :
    Moves lines start (fun stop assignment =>
      assignment.toExpression.spanTree.Lies lines start stop)
      (assignment left operators right).parse :=
  .bind (.require (leftPlaces start)) fun _ _ _ lies =>
    assignmentAfter_moves operators rightPlaces lies (Nat.le_refl _)

/-! ## Statements -/

theorem identifier_moves {token : Token} (taken : token.Spans lines first last)
    (behind : last ≤ start) :
    Moves lines start (fun stop identifier => (leaf identifier.span).Lies lines first stop)
      (identifier token) := by
  refine .bind (.text _) fun text stop further _ => ?_
  exact .pure (taken.lies.mono (Nat.le_refl _) (by omega))

theorem nameIdentifier_moves :
    Moves lines start (fun stop identifier => (leaf identifier.span).Lies lines start stop)
      nameIdentifier :=
  .bind .name fun _ _ _ taken => identifier_moves taken (Nat.le_refl _)

/-- The priority that is not written lies at the end of the keyword. -/
theorem priority_moves {head : Token} (taken : head.Spans lines first start) :
    Moves lines start (fun stop priority => (leaf priority.span).Lies lines start stop)
      (priority head) := by
  refine .bind (.tokenIf _) fun token middle one written => ?_
  cases token with
  | some token =>
      refine .bind (.text _) fun text stop two _ => ?_
      exact .pure ((written token rfl).lies.mono (Nat.le_refl _) two)
  | none =>
      refine .pure ?_
      obtain ⟨begins, -, -, equal⟩ := taken
      have span : Span.emptyAt head.stop = lines.spanAt start start := by
        unfold Token.stop
        rw [equal]
        rfl
      simp only [span]
      exact .node .nil (Nat.le_refl _) (Nat.le_refl _) one

private def definitionTrees (parts : Option PythonCode × Option Assignment) : List SpanTree :=
  parts.2.toList.map (·.toExpression.spanTree) ++ parts.1.toList.map (leaf ·.span)

theorem definition_moves :
    Moves lines start (fun stop parts => AllLie lines start stop (definitionTrees parts))
      definition := by
  refine .bind (.attempt (.require (reference_places start))) fun left middle one lefts => ?_
  cases left with
  | none => exact .pure .nil
  | some left =>
      have lies := lefts left rfl
      refine .bind (.tokenIf _) fun opening here two _ => ?_
      cases opening with
      | none =>
          refine .bind (.attempt (assignmentAfter_moves _ python_places lies two))
            fun assignment stop three made => ?_
          exact .pure (.append (.option made) .nil)
      | some _ =>
          refine .bind (.attempt pythonCode_moves) fun index there three codes => ?_
          cases index with
          | none => exact .pure .nil
          | some index =>
              have code := codes index rfl
              have subscript : AllLie lines start there ((some index).toList.map (leaf ·.span)) :=
                .cons (code.mono (by omega) (Nat.le_refl _)) .nil
              refine .bind (.attempt (.token _)) fun closing next four _ => ?_
              cases closing with
              | none => exact .pure (.append .nil (subscript.mono (Nat.le_refl _) four))
              | some _ =>
                  refine .bind (.attempt (assignmentAfter_moves _ python_places lies (by omega)))
                    fun assignment stop five made => ?_
                  exact .pure (.append (.option made) (subscript.mono (Nat.le_refl _) (by omega)))

/-- A rule whose statements lie between where it starts and where it stops, and are no labels. -/
def PlacesPlain (lines : LineMap) (rule : Rule Statement) : Prop :=
  ∀ start, Moves lines start
    (fun stop statement => statement.spanTree.Lies lines start stop ∧ statement.isLabel = false)
    rule.parse

theorem define_places : PlacesPlain lines define := by
  intro start
  refine .bind (.token _) fun head middle one taken => ?_
  refine .bind (priority_moves taken) fun priority here two zero => ?_
  refine .bind definition_moves fun parts there three inside => ?_
  refine .bind (.nodeFrom taken (by omega)) fun span stop four node => ?_
  exact .pure ⟨node _ (.cons (zero.mono (Nat.le_refl _) (by omega)) (inside.mono two four)), rfl⟩

theorem defaultValue_places : PlacesPlain lines defaultValue := by
  intro start
  refine .bind (.token _) fun head middle one taken => ?_
  refine .bind (priority_moves taken) fun priority here two zero => ?_
  refine .bind (.attempt (.require (assignment_moves _ reference_places python_places)))
    fun assignment there three made => ?_
  refine .bind (.nodeFrom taken (by omega)) fun span stop four node => ?_
  exact .pure ⟨node _ (.cons (zero.mono (Nat.le_refl _) (by omega))
    (.append (.mono (.option made) two four) .nil)), rfl⟩

theorem jump_places : PlacesPlain lines jump := by
  intro start
  refine .bind (.token _) fun head middle one taken => ?_
  refine .bind (.tokenIf _) fun computed here two _ => ?_
  cases computed with
  | some _ =>
      refine .bind (.attempt pythonCode_moves) fun code there three made => ?_
      refine .bind (.nodeFrom taken (by omega)) fun span stop four node => ?_
      exact .pure ⟨node _ (.append .nil (.mono (.option made) two four)), rfl⟩
  | none =>
      refine .bind (.attempt nameIdentifier_moves) fun target there three made => ?_
      refine .bind (.nodeFrom taken (by omega)) fun span stop four node => ?_
      exact .pure ⟨node _ (.append (.mono (.option made) two four) .nil), rfl⟩

theorem callTail_moves :
    Moves lines start (fun stop parts => AllLie lines start stop
      (parts.1.map Expression.spanTree ++ parts.2.toList.map (leaf ·.span))) callTail := by
  have arguments (start : Nat) : Moves lines start
      (fun stop argument => AllLie lines start stop [Expression.spanTree argument])
      expression.require :=
    .mono (.require (expression_places start)) fun _ _ _ lies => .cons lies .nil
  refine .bind (.parenthesizedList _ arguments) fun arguments middle one inside => ?_
  rw [← List.map_eq_flatMap] at inside
  refine .bind (.tokenIf _) fun word here two _ => ?_
  cases word with
  | some _ =>
      refine .bind (.attempt nameIdentifier_moves) fun site stop three made => ?_
      exact .pure (.append (inside.mono (Nat.le_refl _) (by omega))
        (.mono (.option made) (by omega) (Nat.le_refl _)))
  | none => exact .pure (.append (inside.mono (Nat.le_refl _) two) .nil)

theorem call_places : PlacesPlain lines call := by
  intro start
  refine .bind (.token _) fun head middle one taken => ?_
  refine .bind (.tokenIf _) fun computed here two _ => ?_
  cases computed with
  | some _ =>
      refine .bind (.attempt pythonCode_moves) fun code there three made => ?_
      refine .bind (.nodeFrom taken (by omega)) fun span stop four node => ?_
      refine .pure ⟨node _ ?_, rfl⟩
      exact .append (.append (.append .nil (.mono (.option made) two four)) .nil) .nil
  | none =>
      refine .bind (.tokenIf _) fun shown there three _ => ?_
      cases shown with
      | some _ =>
          refine .bind (.attempt nameIdentifier_moves) fun screen next four made => ?_
          refine .bind (.move fun _ along => along.skipRestOfLine) fun _ behind five _ => ?_
          refine .bind (.nodeFrom taken (by omega)) fun span stop six node => ?_
          refine .pure ⟨node _ ?_, rfl⟩
          exact .append (.append .nil (.mono (.option made) (by omega) (by omega))) .nil
      | none =>
          refine .bind (.attempt nameIdentifier_moves) fun target next four made => ?_
          cases target with
          | none =>
              refine .bind (.nodeFrom taken (by omega)) fun span stop five node => ?_
              exact .pure ⟨node _ .nil, rfl⟩
          | some target =>
              refine .bind callTail_moves fun parts behind five inside => ?_
              refine .bind (.nodeFrom taken (by omega)) fun span stop six node => ?_
              have named := (made target rfl).mono (show middle ≤ there by omega)
                (show next ≤ stop by omega)
              have tail := inside.mono (show middle ≤ next by omega) six
              refine .pure ⟨node _ ?_, rfl⟩
              rw [Call.spanTrees]
              simpa using AllLie.cons named tail

/-- A statement of a keyword and one part, which may be absent. -/
private theorem headed_places {kind : Kind} {part : Parse (Option α)} {toTree : α → SpanTree}
    {make : Option α → Span → Statement}
    (moves : ∀ start, Moves lines start
      (fun stop value => ∀ one ∈ value, (toTree one).Lies lines start stop) part)
    (tree : ∀ value span, (make value span).spanTree = .node span (value.toList.map toTree))
    (plain : ∀ value span, (make value span).isLabel = false) :
    PlacesPlain lines (.startingAt kind do
      let head ← token kind
      let value ← part
      pure (make value (← spanFrom head.start))) := by
  intro start
  refine .bind (.token _) fun head middle one taken => ?_
  refine .bind (moves middle) fun value here two made => ?_
  refine .bind (.nodeFrom taken two) fun span stop three node => ?_
  refine .pure ⟨?_, plain value span⟩
  rw [tree]
  exact node _ (.mono (.option made) (Nat.le_refl _) three)

theorem return_places : PlacesPlain lines «return» :=
  headed_places (fun start => .optional (expression_places start)) (fun _ _ => rfl)
    fun _ _ => rfl

theorem pause_places : PlacesPlain lines pause :=
  headed_places (fun start => .optional (expression_places start)) (fun _ _ => rfl)
    fun _ _ => rfl

theorem pythonLine_places : PlacesPlain lines pythonLine :=
  headed_places (fun _ => .attempt pythonCode_moves) (fun _ _ => rfl) fun _ _ => rfl

theorem pass_places : PlacesPlain lines pass :=
  fun _ => .bind (.token _) fun _ _ _ taken => .pure ⟨taken.lies, rfl⟩

end Grammar

end NovelScript
