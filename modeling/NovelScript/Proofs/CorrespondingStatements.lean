import NovelScript.Proofs.CorrespondingParses

/-!
# Corresponding documents

Every rule of the grammar makes corresponding results from corresponding tokens, so that
corresponding scripts have corresponding syntax trees and errors.
-/

namespace NovelScript

open Parse Grammar

namespace Correspondence

variable {matching : Correspondence} {source source' : List Char}

/-! ## Expressions -/

theorem literal_allows : matching.Allows source source' matching.Expressions literal := by
  have agree {cursor cursor' : Cursor} (cursors : matching.Cursors source source' cursor cursor') :
      (fun kind => cursor.test (.literal kind)) = fun kind => cursor'.test (.literal kind) :=
    funext fun kind => cursors.test (.literal kind)
  constructor
  · intro cursor cursor' cursors
    exact congrArg LiteralKind.all.any (agree cursors)
  · refine .bind .look fun cursor cursor' cursors => ?_
    rw [agree cursors]
    split
    · exact .fail
    · refine .bind (.token _) fun token token' taken => ?_
      refine .bind (.text taken.1) fun text text' texts => ?_
      exact .pure (.literal ⟨rfl, texts, taken.1.span⟩)

theorem attributes_relates (path : String) {first second : Cursor} {tokens tokens' : List Token}
    (cursors : matching.Cursors source source' first second)
    (upcoming : List.Forall₂ (matching.Readable source source') tokens tokens') :
    Option.Rel Eq (attributes path first tokens).1 (attributes path second tokens').1 ∧
      matching.Cursors source source' (attributes path first tokens).2
        (attributes path second tokens').2 := by
  fun_induction attributes path first tokens generalizing second tokens' with
  | case1 path first =>
      cases upcoming with
      | nil => exact ⟨.some rfl, cursors⟩
  | case2 path first dot isDot =>
      cases upcoming with
      | cons dots later =>
          cases later with
          | nil =>
              rw [dots.hasKind] at isDot
              simp only [attributes, if_pos isDot]
              exact ⟨.none, (cursors.shift dots .nil).record _ _⟩
  | case3 path first dot isDot name rest isName behind =>
      rename_i ih
      cases upcoming with
      | cons dots later =>
          cases later with
          | cons names later =>
              have shifted := (cursors.shift dots (.cons names later)).shift names later
              have same := names.name isName
              rw [← cursors.reads, ← cursors.reads'] at same
              rw [dots.hasKind] at isDot
              rw [names.isName] at isName
              simp only [attributes, if_pos isDot, if_pos isName, ← same]
              exact ih shifted later
  | case4 path first dot isDot name rest notName =>
      cases upcoming with
      | cons dots later =>
          cases later with
          | cons names later =>
              rw [dots.hasKind] at isDot
              rw [names.isName] at notName
              simp only [attributes, if_pos isDot, if_neg notName]
              exact ⟨.none, (cursors.shift dots (.cons names later)).record _ _⟩
  | case5 path first dot rest notDot =>
      cases upcoming with
      | cons dots later =>
          rw [dots.hasKind] at notDot
          simp only [attributes, if_neg notDot]
          exact ⟨.some rfl, cursors⟩

private theorem attributes_relate (path : String) :
    matching.Relates source source' Eq (fun cursor => attributes path cursor cursor.upcoming)
      fun cursor => attributes path cursor cursor.upcoming :=
  fun _ _ cursors => attributes_relates path cursors cursors.upcoming

theorem reference_allows : matching.Allows source source' matching.Expressions reference := by
  refine .startingAt _ (.bind (.token _) fun first first' firsts => ?_)
  have name : first.isName = true := by simp [Token.isName, firsts.2]
  refine .bind (.nameText firsts.1 name) fun path path' paths => ?_
  subst paths
  refine .bind (attributes_relate path) fun name name' names => ?_
  refine .bind (.spanFrom firsts.1.span.start) fun span span' spans => ?_
  exact .pure (.reference ⟨names, spans⟩)

theorem expressionOf_allows {parenthesized : Rule Expression}
    (allows : matching.Allows source source' matching.Expressions parenthesized) :
    matching.Allows source source' matching.Expressions (expressionOf parenthesized) := by
  apply Allows.choice
  intro rule member
  simp only [expressionForms, List.mem_cons, List.not_mem_nil, or_false] at member
  rcases member with rfl | rfl | rfl
  · exact literal_allows
  · exact allows
  · exact reference_allows

theorem parenthesizedBody_relates {inner : Rule Expression}
    (allows : matching.Allows source source' matching.Expressions inner) :
    matching.Relates source source' matching.Expressions (parenthesizedBody inner)
      (parenthesizedBody inner) := by
  refine .bind (.token _) fun opening opening' openings => ?_
  refine .bind allows.require fun inner inner' inners => ?_
  refine .bind (.token _) fun closing closing' _ => ?_
  refine .bind (.spanFrom openings.1.span.start) fun span span' spans => ?_
  exact .pure (.parenthesized inners spans)

theorem parenthesizedWithin_allows (levels : Nat) :
    matching.Allows source source' matching.Expressions (parenthesizedWithin levels) := by
  induction levels with
  | zero =>
      exact .startingAt _ fun cursor cursor' cursors =>
        ⟨.none, cursors.recordUnexpected.skipRestOfLine⟩
  | succ levels ih =>
      refine .startingAt _ fun cursor cursor' cursors => ?_
      obtain ⟨entered, insides⟩ := cursors.enterNested
      rcases start : cursor.enterNested with ⟨enters, inside⟩
      rcases start' : cursor'.enterNested with ⟨enters', inside'⟩
      rw [start, start'] at entered insides
      obtain rfl : enters = enters' := entered
      cases enters with
      | false => exact ⟨.none, insides.skipRestOfLine⟩
      | true =>
          obtain ⟨results, left⟩ := parenthesizedBody_relates (expressionOf_allows ih) _ _ insides
          exact ⟨results, left.leaveNested⟩

theorem parenthesized_allows :
    matching.Allows source source' matching.Expressions parenthesized := by
  refine .startingAt _ fun cursor cursor' cursors => ?_
  rw [cursors.levels]
  exact (parenthesizedWithin_allows cursor'.levels).parse cursor cursor' cursors

theorem expression_allows : matching.Allows source source' matching.Expressions expression :=
  expressionOf_allows parenthesized_allows

theorem pythonCode_relates :
    matching.Relates source source' matching.Codes pythonCode pythonCode := by
  refine .bind (.token _) fun token token' taken => ?_
  refine .bind (.text taken.1) fun text text' texts => ?_
  exact .pure ⟨texts, congrArg (!·) taken.1.isInvalid, taken.1.span⟩

theorem python_allows : matching.Allows source source' matching.Expressions python :=
  .startingAt _ (.bind pythonCode_relates fun _ _ codes => .pure (.python codes))

theorem assignmentAfter_relates (operators : List Operator) {right : Rule Expression}
    (allows : matching.Allows source source' matching.Expressions right)
    {left left' : Expression} (lefts : matching.Expressions left left') :
    matching.Relates source source' matching.Assignments (assignmentAfter operators right left)
      (assignmentAfter operators right left') := by
  refine .bind (.anyToken _) fun token token' tokens => ?_
  rw [tokens.kind]
  split
  · refine .bind allows.require fun right right' rights => ?_
    exact .pure ⟨lefts, rfl, rights, lefts.span.start, rights.span.stop⟩
  · exact .fail

theorem assignment_allows {left right : Rule Expression} (operators : List Operator)
    (lefts : matching.Allows source source' matching.Expressions left)
    (rights : matching.Allows source source' matching.Expressions right) :
    matching.Allows source source' matching.Assignments (assignment left operators right) :=
  ⟨lefts.starts, .bind lefts.require fun _ _ same => assignmentAfter_relates operators rights same⟩

/-! ## Statements -/

theorem identifier_relates {token token' : Token}
    (same : matching.Readable source source' token token') (name : token.isName = true) :
    matching.Relates source source' matching.Identifiers (identifier token)
      (identifier token') :=
  .bind (.nameText same name) fun _ _ texts => .pure ⟨texts, same.span⟩

theorem nameIdentifier_relates :
    matching.Relates source source' matching.Identifiers nameIdentifier nameIdentifier :=
  .bind .name fun _ _ taken => identifier_relates taken.1 taken.2

theorem priority_relates {head head' : Token}
    (heads : matching.Readable source source' head head') :
    matching.Relates source source' matching.Literals (priority head) (priority head') := by
  refine .bind (.tokenIf _) fun token token' tokens => ?_
  cases tokens with
  | some same => exact .bind (.text same) fun _ _ texts => .pure ⟨rfl, texts, same.span⟩
  | none => exact .pure ⟨rfl, matching.zero, heads.span.stop, heads.span.stop⟩

/-- What stands behind the priority of a definition. -/
def Bindings (matching : Correspondence)
    (first second : Option PythonCode × Option Assignment) : Prop :=
  Option.Rel matching.Codes first.1 second.1 ∧ Option.Rel matching.Assignments first.2 second.2

theorem definition_relates :
    matching.Relates source source' matching.Bindings definition definition := by
  refine .bind (.attempt reference_allows.require) fun left left' lefts => ?_
  cases lefts with
  | none => exact .pure ⟨.none, .none⟩
  | some lefts =>
      have right : matching.Allows source source' matching.Expressions python := python_allows
      have assigned := (assignmentAfter_relates defineOperators right lefts).attempt
      refine .bind (.tokenIf _) fun opening opening' openings => ?_
      cases openings with
      | none => exact .bind assigned fun _ _ assignments => .pure ⟨.none, assignments⟩
      | some _ =>
          refine .bind (.attempt pythonCode_relates) fun index index' indices => ?_
          cases indices with
          | none => exact .pure ⟨.none, .none⟩
          | some indices =>
              refine .bind (.attempt (.token _)) fun closing closing' closings => ?_
              cases closings with
              | none => exact .pure ⟨.some indices, .none⟩
              | some _ =>
                  exact .bind assigned fun _ _ assignments => .pure ⟨.some indices, assignments⟩

theorem define_allows : matching.Allows source source' matching.Statements define := by
  refine .startingAt _ (.bind (.token _) fun head head' heads => ?_)
  refine .bind (priority_relates heads.1) fun priority priority' priorities => ?_
  refine .bind definition_relates fun parts parts' same => ?_
  refine .bind (.spanFrom heads.1.span.start) fun span span' spans => ?_
  exact .pure (.define ⟨priorities, same.2, same.1, spans⟩)

theorem defaultValue_allows :
    matching.Allows source source' matching.Statements defaultValue := by
  refine .startingAt _ (.bind (.token _) fun head head' heads => ?_)
  refine .bind (priority_relates heads.1) fun priority priority' priorities => ?_
  have left : matching.Allows source source' matching.Expressions reference := reference_allows
  have assigned := (assignment_allows [.assign] left python_allows).require.attempt
  refine .bind assigned fun assignment assignment' assignments => ?_
  refine .bind (.spanFrom heads.1.span.start) fun span span' spans => ?_
  exact .pure (.defaultValue ⟨priorities, assignments, spans⟩)

theorem jump_allows : matching.Allows source source' matching.Statements jump := by
  refine .startingAt _ (.bind (.token _) fun head head' heads => ?_)
  refine .bind (.tokenIf _) fun computed computed' same => ?_
  cases same with
  | some _ =>
      refine .bind (.attempt pythonCode_relates) fun code code' codes => ?_
      refine .bind (.spanFrom heads.1.span.start) fun span span' spans => ?_
      exact .pure (.jump ⟨.none, codes, spans⟩)
  | none =>
      refine .bind (.attempt nameIdentifier_relates) fun target target' targets => ?_
      refine .bind (.spanFrom heads.1.span.start) fun span span' spans => ?_
      exact .pure (.jump ⟨targets, .none, spans⟩)

/-- What stands behind the target of a call. -/
def CallTails (matching : Correspondence)
    (first second : List Expression × Option Identifier) : Prop :=
  List.Forall₂ matching.Expressions first.1 second.1 ∧
    Option.Rel matching.Identifiers first.2 second.2

theorem callTail_relates :
    matching.Relates source source' matching.CallTails callTail callTail := by
  refine .bind (.parenthesizedList expression_allows.require _) fun values values' arguments => ?_
  refine .bind (.tokenIf _) fun site site' sites => ?_
  cases sites with
  | some _ =>
      exact .bind (.attempt nameIdentifier_relates) fun _ _ names => .pure ⟨arguments, names⟩
  | none => exact .pure ⟨arguments, .none⟩

theorem call_allows : matching.Allows source source' matching.Statements call := by
  refine .startingAt _ (.bind (.token _) fun head head' heads => ?_)
  have finish {first second : Span → Call}
      (same : ∀ span span', matching.Spans span span' →
        matching.Calls (first span) (second span')) :
      matching.Relates source source' matching.Statements
        (do pure (.call (first (← spanFrom head.start))))
        (do pure (.call (second (← spanFrom head'.start)))) :=
    .bind (.spanFrom heads.1.span.start) fun span span' spans => .pure (.call (same span span' spans))
  refine .bind (.tokenIf _) fun computed computed' same => ?_
  cases same with
  | some _ =>
      refine .bind (.attempt pythonCode_relates) fun code code' codes => ?_
      exact finish fun _ _ spans => ⟨.none, .nil, codes, .none, .none, spans⟩
  | none =>
      refine .bind (.tokenIf _) fun screen screen' same => ?_
      cases same with
      | some _ =>
          refine .bind (.attempt nameIdentifier_relates) fun screen screen' screens => ?_
          refine .bind (.move fun _ _ cursors => cursors.skipRestOfLine) fun _ _ _ => ?_
          exact finish fun _ _ spans => ⟨.none, .nil, .none, screens, .none, spans⟩
      | none =>
          refine .bind (.attempt nameIdentifier_relates) fun target target' targets => ?_
          cases targets with
          | none => exact finish fun _ _ spans => ⟨.none, .nil, .none, .none, .none, spans⟩
          | some targets =>
              refine .bind callTail_relates fun tail tail' tails => ?_
              exact finish fun _ _ spans =>
                ⟨.some targets, tails.1, .none, .none, tails.2, spans⟩

theorem return_allows : matching.Allows source source' matching.Statements «return» := by
  refine .startingAt _ (.bind (.token _) fun head head' heads => ?_)
  refine .bind expression_allows.optional fun value value' values => ?_
  refine .bind (.spanFrom heads.1.span.start) fun span span' spans => ?_
  exact .pure (.return values spans)

theorem pass_allows : matching.Allows source source' matching.Statements pass :=
  .startingAt _ (.bind (.token _) fun _ _ heads => .pure (.pass heads.1.span))

theorem pause_allows : matching.Allows source source' matching.Statements pause := by
  refine .startingAt _ (.bind (.token _) fun head head' heads => ?_)
  refine .bind expression_allows.optional fun duration duration' durations => ?_
  refine .bind (.spanFrom heads.1.span.start) fun span span' spans => ?_
  exact .pure (.pause durations spans)

theorem pythonLine_allows : matching.Allows source source' matching.Statements pythonLine := by
  refine .startingAt _ (.bind (.token _) fun head head' heads => ?_)
  refine .bind (.attempt pythonCode_relates) fun code code' codes => ?_
  refine .bind (.spanFrom heads.1.span.start) fun span span' spans => ?_
  exact .pure (.python codes spans)

/-! ## Labels and blocks -/

variable (matching source source') in
/-- A way to read bodies of labels that makes corresponding bodies. -/
def Reads (bodies : BodyReader) : Prop :=
  ∀ indent cursor cursor', matching.Cursors source source' cursor cursor' →
    List.Forall₂ matching.Statements (bodies.read indent cursor).1
        (bodies.read indent cursor').1 ∧
      matching.Cursors source source' (bodies.read indent cursor).2
        (bodies.read indent cursor').2

theorem Reads.relates {bodies : BodyReader} (reads : Reads matching source source' bodies)
    (indent : Nat) :
    matching.Relates source source' (List.Forall₂ matching.Statements)
      (fun cursor =>
        let (body, behind) := bodies.read indent cursor
        (some body, behind))
      fun cursor =>
        let (body, behind) := bodies.read indent cursor
        (some body, behind) := by
  intro cursor cursor' cursors
  obtain ⟨same, left⟩ := reads indent cursor cursor' cursors
  exact ⟨.some same, left⟩

theorem parameter_relates :
    matching.Relates source source' matching.Parameters parameter parameter := by
  refine .bind (.token _) fun token token' taken => ?_
  have isName : token.isName = true := by simp [Token.isName, taken.2]
  refine .bind (identifier_relates taken.1 isName) fun name name' names => ?_
  refine .bind (.tokenIf _) fun assigned assigned' same => ?_
  cases same with
  | some _ =>
      exact .bind (.attempt expression_allows.require) fun _ _ values => .pure ⟨names, values⟩
  | none => exact .pure ⟨names, .none⟩

theorem labelHead_relates :
    matching.Relates source source' matching.LabelHeads labelHead labelHead := by
  refine .bind (.attempt nameIdentifier_relates) fun name name' names => ?_
  refine .bind (.parenthesizedList parameter_relates _) fun parameters parameters' same => ?_
  refine .bind (.attempt (.token _)) fun colon colon' _ => ?_
  exact .pure ⟨names, same⟩

private theorem getLast?_rel {α β : Type} {relation : α → β → Prop} {first : List α}
    {second : List β} (same : List.Forall₂ relation first second) :
    Option.Rel relation first.getLast? second.getLast? := by
  induction same with
  | nil => exact .none
  | cons here later ih =>
      cases later with
      | nil => exact .some here
      | cons next later => simpa only [List.getLast?_cons_cons] using ih

/-- The last statement, or else the head of a label, ends at corresponding positions. -/
private theorem stops_correspond {body body' : List Statement} {span span' : Span}
    (bodies : List.Forall₂ matching.Statements body body') (spans : matching.Spans span span') :
    matching.position
      (match body.getLast? with | some last => last.span.stop | none => span.stop)
      (match body'.getLast? with | some last => last.span.stop | none => span'.stop) :=
  match body.getLast?, body'.getLast?, getLast?_rel bodies with
  | _, _, .none => spans.stop
  | _, _, .some last => last.span.stop

theorem labelWith_allows {bodies : BodyReader} (reads : Reads matching source source' bodies) :
    matching.Allows source source' matching.Statements (labelWith bodies) := by
  refine .startingAt _ (.bind (.token _) fun start start' starts => ?_)
  refine .bind labelHead_relates fun head head' heads => ?_
  refine .bind (.spanFrom starts.1.span.start) fun headSpan headSpan' spans => ?_
  refine .bind (.move fun _ _ cursors => cursors.expectEndOfLine) fun _ _ _ => ?_
  rw [show start.start.column = start'.start.column from matching.column starts.1.span.start]
  refine .bind (reads.relates start'.start.column) fun body body' same => ?_
  exact .pure (.label heads same ⟨starts.1.span.start, stops_correspond same spans⟩)

theorem statementWith_allows {bodies : BodyReader} (reads : Reads matching source source' bodies) :
    matching.Allows source source' matching.Statements (statementWith bodies) := by
  apply Allows.choice
  intro rule member
  simp only [statementForms, List.mem_cons, List.not_mem_nil, or_false] at member
  rcases member with rfl | rfl | rfl | rfl | rfl | rfl | rfl | rfl | rfl
  · exact define_allows
  · exact defaultValue_allows
  · exact labelWith_allows reads
  · exact jump_allows
  · exact call_allows
  · exact return_allows
  · exact pass_allows
  · exact pause_allows
  · exact pythonLine_allows

theorem line_corresponds {bodies : BodyReader} (reads : Reads matching source source' bodies)
    {first second : Cursor} (cursors : matching.Cursors source source' first second) :
    Option.Rel matching.Statements (line bodies first).1 (line bodies second).1 ∧
      matching.Cursors source source' (line bodies first).2 (line bodies second).2 := by
  have allows := statementWith_allows reads
  unfold line
  simp only [allows.starts first second cursors]
  split
  · obtain ⟨statements, left⟩ := allows.parse first second cursors
    rcases run : (statementWith bodies).parse first with ⟨value, behind⟩
    rcases run' : (statementWith bodies).parse second with ⟨value', behind'⟩
    rw [run, run'] at statements left
    cases statements with
    | none => exact ⟨.none, left⟩
    | some same =>
        refine ⟨.some same, ?_⟩
        simp only [same.isLabel]
        split
        · exact left
        · exact left.expectEndOfLine
  · exact ⟨.none, cursors.skipLine⟩

theorem Cursors.behindLine {before before' behind behind' : Cursor}
    (starts : matching.Cursors source source' before before')
    (ends : matching.Cursors source source' behind behind') :
    matching.Cursors source source' (behindLine before behind) (behindLine before' behind') := by
  unfold Grammar.behindLine
  rw [starts.upcoming.length_eq, ends.upcoming.length_eq]
  split
  · exact ends
  · exact ends.advance.2

theorem Cursors.goesOn {first second : Cursor} (parent : Option Nat)
    (same : matching.Cursors source source' first second) :
    goesOn parent first = goesOn parent second := by
  rw [Grammar.goesOn, Grammar.goesOn, same.hasNext, same.lineIndent]

private theorem toList_rel {relation : α → β → Prop} {first : Option α} {second : Option β}
    (same : Option.Rel relation first second) :
    List.Forall₂ relation first.toList second.toList := by
  cases same with
  | none => exact .nil
  | some here => exact .cons here .nil

theorem blockWith_corresponds {bodies : BodyReader} (reads : Reads matching source source' bodies)
    (parent : Option Nat) {first second : Cursor}
    (cursors : matching.Cursors source source' first second) :
    List.Forall₂ matching.Statements (blockWith bodies parent first).1
        (blockWith bodies parent second).1 ∧
      matching.Cursors source source' (blockWith bodies parent first).2
        (blockWith bodies parent second).2 := by
  fun_induction blockWith bodies parent first generalizing second with
  | case1 first start more head rest =>
      rename_i ih
      have started : matching.Cursors source source' start second.skipEmptyLines :=
        cursors.skipEmptyLines
      obtain ⟨heads, left⟩ := line_corresponds reads started
      obtain ⟨later, ends⟩ := ih (started.behindLine left)
      rw [started.goesOn] at more
      rw [blockWith.eq_def bodies parent second]
      simp only
      rw [if_pos more]
      exact ⟨List.rel_append (toList_rel heads) later, ends⟩
  | case2 first start =>
      rename_i done
      have started : matching.Cursors source source' start second.skipEmptyLines :=
        cursors.skipEmptyLines
      rw [started.goesOn] at done
      rw [blockWith.eq_def bodies parent second]
      simp only
      rw [if_neg done]
      exact ⟨.nil, started⟩

theorem bodiesWithin_reads (levels : Nat) :
    Reads matching source source' (bodiesWithin levels) := by
  induction levels with
  | zero => exact fun indent _ _ cursors => ⟨.nil, cursors.recordUnexpected.skipBlock indent⟩
  | succ levels ih =>
      intro indent cursor cursor' cursors
      obtain ⟨entered, insides⟩ := cursors.enterNested
      simp only [bodiesWithin]
      rcases start : cursor.enterNested with ⟨enters, inside⟩
      rcases start' : cursor'.enterNested with ⟨enters', inside'⟩
      rw [start, start'] at entered insides
      obtain rfl : enters = enters' := entered
      cases enters with
      | false => exact ⟨.nil, insides.skipBlock indent⟩
      | true =>
          obtain ⟨same, left⟩ := blockWith_corresponds ih (some indent) insides
          exact ⟨same, left.leaveNested⟩

/-! ## Documents -/

theorem block_corresponds {tokens tokens' : List Token}
    (same : List.Forall₂ (matching.Readable source source') tokens tokens') :
    List.Forall₂ matching.Statements (block none (Cursor.ofTokens source tokens)).1
        (block none (Cursor.ofTokens source' tokens')).1 ∧
      matching.Cursors source source' (block none (Cursor.ofTokens source tokens)).2
        (block none (Cursor.ofTokens source' tokens')).2 := by
  have start : matching.Cursors source source' (Cursor.ofTokens source tokens)
      (Cursor.ofTokens source' tokens') := by
    refine ⟨rfl, rfl, ?_, .none, rfl, rfl, .nil⟩
    refine List.rel_filter (fun token token' here => ?_) same
    simp only [here.kind]
  exact blockWith_corresponds (bodiesWithin_reads _) none start

theorem ofTokens_corresponds {tokens tokens' : List Token}
    (same : List.Forall₂ (matching.Readable source source') tokens tokens')
    (origin : matching.position .origin .origin) :
    matching.Documents (Document.ofTokens source tokens).1 (Document.ofTokens source' tokens').1 ∧
      List.Forall₂ matching.ParseErrors (Document.ofTokens source tokens).2
        (Document.ofTokens source' tokens').2 := by
  obtain ⟨statements, ends⟩ := block_corresponds same
  refine ⟨⟨statements, ?_⟩, ends.errors⟩
  unfold Document.ofTokens
  dsimp only
  cases same with
  | nil => exact ⟨origin, origin⟩
  | @cons first first' rest rest' here later =>
      have lasts := getLast?_rel (List.Forall₂.cons here later)
      rw [List.head?_cons, List.head?_cons]
      generalize (first :: rest).getLast? = last at lasts
      generalize (first' :: rest').getLast? = last' at lasts
      cases lasts with
      | none => exact ⟨origin, origin⟩
      | some last => exact ⟨here.span.start, last.span.stop⟩

end Correspondence

end NovelScript
