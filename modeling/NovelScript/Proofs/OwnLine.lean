import NovelScript.Proofs.Opening

/-!
# A line on its own

Reading a line comes in two parts.  The first one reads the line itself and is the same at any
nesting depth; the second one is there for labels only and reads the body from the next line on.
-/

namespace NovelScript.Grammar

open Parse

/-! ## Statements without their bodies -/

/-- The statement of a label with the body that starts at the cursor. -/
def readBody (bodies : BodyReader) (head : LabelHead) (span : Span) (cursor : Cursor) :
    Option Statement × Cursor :=
  let (body, behind) := bodies.read span.start.column cursor
  let stop := match body.getLast? with
    | some last => last.span.stop
    | none => span.stop
  (some (.label head body ⟨span.start, stop⟩), behind)

/-- Two lists of rules that differ in one rule find the same rule, or that one. -/
private theorem find_replaced {rules later : List (Rule Statement)} {one two : Rule Statement}
    {cursor : Cursor} (same : one.starts cursor = two.starts cursor) :
    (∃ rule ∈ rules ++ later, rule.starts cursor = true ∧
        (rules ++ one :: later).find? (·.starts cursor) = some rule ∧
        (rules ++ two :: later).find? (·.starts cursor) = some rule) ∨
      (two.starts cursor = true ∧
        (rules ++ one :: later).find? (·.starts cursor) = some one ∧
        (rules ++ two :: later).find? (·.starts cursor) = some two) ∨
      ((rules ++ one :: later).find? (·.starts cursor) = none ∧
        (rules ++ two :: later).find? (·.starts cursor) = none) := by
  simp only [List.find?_append, List.find?_cons, same]
  cases early : rules.find? (·.starts cursor) with
  | some rule =>
      refine .inl ⟨rule, ?_, ?_, rfl, rfl⟩
      · exact List.mem_append_left _ (List.mem_of_find?_eq_some early)
      · simpa using List.find?_some early
  | none =>
      cases starts : two.starts cursor with
      | true => exact .inr (.inl ⟨rfl, rfl, rfl⟩)
      | false =>
          cases late : later.find? (·.starts cursor) with
          | some rule =>
              refine .inl ⟨rule, ?_, ?_, rfl, rfl⟩
              · exact List.mem_append_right _ (List.mem_of_find?_eq_some late)
              · simpa using List.find?_some late
          | none => exact .inr (.inr ⟨rfl, rfl⟩)

private theorem form_keeps {rule : Rule Statement}
    (member : rule ∈ [define, defaultValue] ++
      [jump, call, «return», pass, pause, pythonLine]) :
    ∃ kind, kind ≠ .keyword .label ∧ Opens kind rule := by
  simp only [List.cons_append, List.nil_append, List.mem_cons, List.not_mem_nil, or_false]
    at member
  rcases member with rfl | rfl | rfl | rfl | rfl | rfl | rfl | rfl
  · exact ⟨_, by simp, define_opens⟩
  · exact ⟨_, by simp, defaultValue_opens⟩
  · exact ⟨_, by simp, jump_opens⟩
  · exact ⟨_, by simp, call_opens⟩
  · exact ⟨_, by simp, return_opens⟩
  · exact ⟨_, by simp, pass_opens⟩
  · exact ⟨_, by simp, pause_opens⟩
  · exact ⟨_, by simp, pythonLine_opens⟩

private theorem labelWith_parse (bodies : BodyReader) {cursor : Cursor}
    (starts : labelLine.starts cursor = true) :
    ∃ head span, (labelLine.parse cursor).1 = some (.label head [] span) ∧
      (labelWith bodies).parse cursor =
        readBody bodies head span (labelLine.parse cursor).2.expectEndOfLine.2 := by
  obtain ⟨start, rest, next, has⟩ := Cursor.next_of_peek starts
  have taken := token_eq next has
  have takes {β : Type} (following : Token → Parse β) :
      (token (.keyword .label) >>= following) cursor =
        following start (cursor.shift start rest) := by
    rw [bind_some (congrArg Prod.fst taken), taken]
  obtain ⟨head, found, -⟩ := labelHead_reads.result (cursor.shift start rest)
  obtain ⟨span, located, begins⟩ :=
    (Reads.spanFrom start.start).result (labelHead (cursor.shift start rest)).2
  have own : labelLine.parse cursor =
      (some (.label head [] span), (labelHead (cursor.shift start rest)).2) := by
    simp only [labelLine, Rule.startingAt]
    rw [takes, bind_some found, bind_some located]
    rfl
  refine ⟨head, span, by rw [own], ?_⟩
  simp only [own, labelWith, Rule.startingAt]
  rw [takes, bind_some found, bind_some located]
  simp only [readBody, begins]
  rfl

/-- A statement is read as far as its own line goes, and then its body if it is a label. -/
theorem statementWith_parse (bodies : BodyReader) (cursor : Cursor) :
    (statementWith bodies).parse cursor =
      match lineStatement.parse cursor with
      | (some (.label head _ span), behind) =>
          readBody bodies head span behind.expectEndOfLine.2
      | other => other := by
  have forms : statementForms bodies = [define, defaultValue] ++
      labelWith bodies :: [jump, call, «return», pass, pause, pythonLine] := rfl
  simp only [statementWith, lineStatement, Rule.choice, forms, lineForms]
  have same : (labelWith bodies).starts cursor = labelLine.starts cursor := rfl
  rcases find_replaced same with
    ⟨rule, member, starts, one, two⟩ | ⟨starts, one, two⟩ | ⟨one, two⟩
  · obtain ⟨kind, other, opens⟩ := form_keeps member
    rw [opens.starts_eq] at starts
    obtain ⟨head, rest, next, has⟩ := Cursor.next_of_peek starts
    obtain ⟨statement, found, opened, -⟩ := opens.parse next has
    simp only [one, two]
    split
    · next label _ span behind equal =>
        rw [equal] at found
        cases found
        exact absurd opened.1.symm other
    · rfl
  · obtain ⟨head, span, found, parsed⟩ := labelWith_parse bodies starts
    simp only [one, two, parsed]
    split
    · next label _ extent behind equal =>
        rw [equal] at found
        cases found
        rw [equal]
    · next none =>
        exact (none head [] span _ (Prod.ext found rfl)).elim
  · simp only [one, two]

theorem statementWith_own (bodies : BodyReader) (cursor : Cursor) :
    ((statementWith bodies).parse cursor).1.map Statement.own =
      (lineStatement.parse cursor).1.map Statement.own := by
  rw [statementWith_parse]
  split
  · next head _ span behind equal =>
      rw [equal]
      rfl
  · rfl

/-! ## Lines without their blocks -/

/-- One line, up to and including its end: its statement as far as the line goes. -/
def ownLine (cursor : Cursor) : Option Statement × Cursor :=
  if lineStatement.starts cursor then
    ((lineStatement.parse cursor).1, (lineStatement.parse cursor).2.expectEndOfLine.2)
  else (none, cursor.skipLine)

theorem lineStatement_starts_iff {cursor : Cursor} :
    lineStatement.starts cursor = true ↔ ∃ kind ∈ openers, cursor.test kind = true := by
  have same : lineStatement.starts cursor = openers.any cursor.test := rfl
  rw [same, List.any_eq_true]

/-- The form that reads a statement is the one of the token in front. -/
theorem lineStatement_form {cursor : Cursor} (starts : lineStatement.starts cursor = true) :
    ∃ kind ∈ openers, ∃ rule, Opens kind rule ∧
      lineForms.find? (·.starts cursor) = some rule ∧ cursor.test kind = true := by
  have found : ∃ rule, lineForms.find? (·.starts cursor) = some rule := by
    rw [← Option.isSome_iff_exists, List.find?_isSome]
    exact List.any_eq_true.1 starts
  obtain ⟨rule, found⟩ := found
  obtain ⟨place, inside, at_⟩ := List.getElem_of_mem (List.mem_of_find?_eq_some found)
  have bounded : place < openers.length := inside
  have opens : Opens (openers[place]) rule := by
    rw [← at_]
    exact (List.forall₂_iff_get.1 forms_open).2 place bounded inside
  have tested : rule.starts cursor = true := by simpa using List.find?_some found
  rw [opens.starts_eq] at tested
  exact ⟨openers[place], List.getElem_mem bounded, rule, opens, found, tested⟩

theorem lineStatement_parse {cursor : Cursor} (starts : lineStatement.starts cursor = true) :
    ∃ kind ∈ openers, ∃ head rest statement, cursor.upcoming = head :: rest ∧
      head.hasKind kind = true ∧ (lineStatement.parse cursor).1 = some statement ∧
      OpenedBy kind head statement ∧
      ∀ current, (lineStatement.parse { cursor with current }).1 = some statement := by
  obtain ⟨kind, member, rule, opens, found, tested⟩ := lineStatement_form starts
  obtain ⟨head, rest, next, has⟩ := Cursor.next_of_peek tested
  obtain ⟨statement, parsed, opened, again⟩ := opens.parse next has
  refine ⟨kind, member, head, rest, statement, next, has, ?_, opened, fun current => ?_⟩
  · exact (congrArg Prod.fst (Rule.choice_some found)).trans parsed
  · have foundAgain : lineForms.find? (fun rule => rule.starts { cursor with current }) =
        some rule := found
    exact (congrArg Prod.fst (Rule.choice_some foundAgain)).trans (again current)

theorem lineStatement_lineBound : lineStatement.LineBound := by
  apply Rule.choice_lineBound
  intro rule member
  obtain ⟨place, inside, at_⟩ := List.getElem_of_mem member
  have bounded : place < openers.length := inside
  have opens := (List.forall₂_iff_get.1 forms_open).2 place bounded inside
  rw [← at_]
  exact opens.lineBound

theorem line_eq (bodies : BodyReader) (cursor : Cursor) :
    line bodies cursor =
      match ownLine cursor with
      | (some (.label head _ span), behind) => readBody bodies head span behind
      | other => other := by
  have same : (statementWith bodies).starts cursor = lineStatement.starts cursor := rfl
  simp only [line, ownLine, same]
  split
  · next starts =>
      obtain ⟨kind, _, head, rest, statement, _, _, parsed, opened, _⟩ :=
        lineStatement_parse starts
      have own : lineStatement.parse cursor = (some statement, (lineStatement.parse cursor).2) :=
        Prod.ext parsed rfl
      rw [statementWith_parse, own]
      cases statement with
      | label head body span => simp [readBody, Statement.isLabel]
      | _ => rfl
  · rfl

end NovelScript.Grammar
