import NovelScript.Proofs.ExpressionAcceptance
import NovelScript.Proofs.Landing

/-!
# Statement lines and their language

Each form of a statement accepts the language of its lines, so that a statement line is read without
an error exactly if it is a word of the language.
-/

namespace NovelScript

open Computability Words

namespace Grammar

open Parse

variable {levels : Nat} {follow : List Token → Prop}

/-! ## Python -/

theorem pythonCode_accepts : pythonCode.Accepts levels Words.python follow :=
  .finish .python fun token => .skip (.text token) fun _ => .pure _

theorem python_accepts : Grammar.python.Accepts levels IsPython Words.python follow := by
  refine .of_parse python_lineBound ?_ (begins_one _) (.finish pythonCode_accepts fun _ => .pure _)
  intro cursor fits
  show cursor.test .python = true ↔ _
  unfold Cursor.test Cursor.peek?
  cases next : cursor.upcoming with
  | nil => simp
  | cons token rest =>
      simpa [IsPython] using (fits.wellFormed token (by simp [next])).hasKind_python_iff

/-! ## Bindings -/

/-- An assignment operator and python behind it. -/
def assigned (operators : List Operator) : Language Token :=
  one (·.kind ∈ operators.map Kind.operator) * Words.python

theorem isPlain_of_operators (operators : List Operator) :
    ∀ kind ∈ operators.map Kind.operator, kind.IsPlain := by
  intro kind member
  obtain ⟨operator, -, rfl⟩ := List.mem_map.1 member
  infer_instance

private theorem assignmentAfter_accepts (operators : List Operator) (left : Expression) :
    (assignmentAfter operators Grammar.python left).Accepts levels (assigned operators) follow := by
  refine .anyToken_bind (isPlain_of_operators operators) ?_ ?_
  · intro token
    split
    · exact .bind (Rule.require_lineBound python_lineBound) fun _ => .pure _
    · exact fail_lineBound
  · intro token member
    obtain ⟨operator, -, same⟩ := List.mem_map.1 member
    rw [← same]
    exact .finish python_accepts.require fun _ => .pure _

theorem assignment_accepts (operators : List Operator) :
    (assignment Grammar.reference operators Grammar.python).Accepts levels (·.kind = .identifier)
      (Words.reference * assigned operators) follow := by
  have opened : Begins (·.kind ∈ operators.map Kind.operator) (assigned operators) :=
    (begins_one _).mul
  refine .of_parse (assignment_lineBound _ reference_lineBound python_lineBound)
    reference_accepts.starts (begins_one _).mul.mul ?_
  refine .bind reference_accepts.require (assignmentAfter_accepts operators) ?_
  intro word member rest _
  refine opened.avoids ?_ member
  intro token member same
  simp at same
  simp [same] at member

theorem priority_accepts (head : Token) :
    (Grammar.priority head).Accepts levels (optional (kind (.literal .integer)))
      (Avoids [.literal .integer]) := by
  refine .of_eq (.tokenIf_bind (fun token => .skip (.text token) fun _ => .pure _) (.pure _)
    fun _ _ holds => holds) ?_
  rw [without_one, mul_one, Words.optional, add_comm]

private theorem definition_accepts :
    definition.Accepts levels
      (Words.reference * (optional (mark .openBracket * Words.python * mark .closeBracket) *
        assigned defineOperators)) follow := by
  have assigns (index : Option PythonCode) (left : Expression) :
      (do pure (index, ← attempt (assignmentAfter defineOperators Grammar.python left)) :
        Parse (Option PythonCode × Option Assignment)).Accepts levels (assigned defineOperators)
        follow :=
    .attempt_finish (assignmentAfter_accepts _ left) (.pure _) fun _ => .pure _
  have opened : Begins (·.kind ∈ defineOperators.map Kind.operator) (assigned defineOperators) :=
    (begins_one _).mul
  have subscript : Begins (fun token => token.kind = .punctuation .openBracket ∨
      token.kind ∈ defineOperators.map Kind.operator)
      (optional (mark .openBracket * Words.python * mark .closeBracket) *
        assigned defineOperators) := by
    rw [Words.optional, add_mul, one_mul]
    exact (opened.mono fun _ => .inr).add ((begins_one _).mul.mul.mul.mono fun _ => .inl)
  refine .attempt_bind reference_accepts.require (.pure _) (fun left => ?_) ?_
  · refine .of_eq (.tokenIf_bind (fun _ => .attempt_andThen pythonCode_accepts (.pure _)
      fun index => .attempt_andThen .token (.pure _) fun _ => assigns (some index) left)
      (assigns none left) fun member => absurd member opened.nil_notMem) ?_
    · rw [opened.without_eq ?_, Words.optional, add_mul, one_mul, add_comm, mul_assoc, mul_assoc]
      · rfl
      · intro token member same
        simp [same, defineOperators] at member
  · intro word member rest _
    refine subscript.avoids ?_ member
    rintro token (same | member)
    · simp [same]
    · intro same
      simp at same
      simp [same, defineOperators] at member

private theorem reference_avoids {kinds : List Kind} (other : .identifier ∉ kinds)
    {more : Language Token} {word rest : List Token} (member : word ∈ Words.reference * more) :
    Avoids kinds (word ++ rest) := by
  have begins : Begins (·.kind = .identifier) (Words.reference * more) := (begins_one _).mul.mul
  exact begins.avoids (fun token same => by rwa [same]) member

theorem define_accepts :
    Grammar.define.Accepts levels (·.kind = .keyword .define) Words.define LineEnd := by
  refine .of_eq (.startingAt (begins_one _).mul (.andThen .token fun head =>
    .bind (priority_accepts head) (fun priority => .finish definition_accepts fun parts =>
      .skip (.spanFrom head.start) fun _ => .pure _) ?_)) ?_
  · exact fun word member rest _ => reference_avoids (by simp) member
  · have operators : one (·.kind ∈ defineOperators.map Kind.operator) =
        operator .assign + operator .plusAssign + operator .orAssign := by
      ext word
      simp only [defineOperators, List.map_cons, List.map_nil, List.mem_cons, List.not_mem_nil,
        or_false, Language.mem_add, operator, kind, mem_one_iff]
      constructor
      · rintro ⟨token, rfl, same | same | same⟩
        · exact .inl (.inl ⟨token, rfl, same⟩)
        · exact .inl (.inr ⟨token, rfl, same⟩)
        · exact .inr ⟨token, rfl, same⟩
      · rintro ((⟨token, rfl, same⟩ | ⟨token, rfl, same⟩) | ⟨token, rfl, same⟩)
        · exact ⟨token, rfl, .inl same⟩
        · exact ⟨token, rfl, .inr (.inl same)⟩
        · exact ⟨token, rfl, .inr (.inr same)⟩
    rw [assigned, operators, Words.define, binding]
    simp only [mul_assoc]
    rfl

theorem defaultValue_accepts :
    Grammar.defaultValue.Accepts levels (·.kind = .keyword .default) Words.defaultValue
      LineEnd := by
  refine .of_eq (.startingAt (begins_one _).mul (.andThen .token fun head =>
    .bind (priority_accepts head) (fun priority => .attempt_finish (assignment_accepts _).require
      (.bind (spanFrom_lineBound _) fun _ => .pure _) fun value =>
        .skip (.spanFrom head.start) fun _ => .pure _) ?_)) ?_
  · exact fun word member rest _ => reference_avoids (by simp) member
  · have operators : one (·.kind ∈ [Operator.assign].map Kind.operator) = operator .assign := by
      simp [operator, kind]
    rw [assigned, operators, Words.defaultValue, binding]
    simp only [mul_assoc]
    rfl

/-! ## Transfers of control -/

theorem nameIdentifier_accepts : nameIdentifier.Accepts levels Words.name follow :=
  .finish .name fun token => .skip (.text token) fun _ => .pure _

private theorem finished {head : Token} (make : Span → Statement) :
    (do pure (make (← spanFrom head.start))).Accepts levels 1 follow :=
  .skip (.spanFrom head.start) fun _ => .pure _

theorem finished_lineBound {head : Token} (make : Span → Statement) :
    LineBound (do pure (make (← spanFrom head.start))) :=
  .bind (spanFrom_lineBound _) fun _ => .pure _

theorem jump_accepts :
    Grammar.jump.Accepts levels (·.kind = .keyword .jump) Words.jump LineEnd := by
  have named : without (.keyword .expression) Words.name = nameExcept [.expression] := by
    rw [Words.name, without_single, nameExcept]
    simp
  refine .of_eq (.startingAt (begins_one _).mul (.andThen .token fun head => .tokenIf_bind
    (fun _ => .attempt_finish pythonCode_accepts (finished_lineBound _) fun _ => finished _)
    (.attempt_finish nameIdentifier_accepts (finished_lineBound _) fun _ => finished _)
    fun member => absurd member (begins_one _).nil_notMem)) ?_
  rw [named, Words.jump]
  rfl

/-! ## Calls -/

theorem mem_anything_iff {word : List Token} :
    word ∈ anything ↔ ∀ token ∈ word, token.kind ≠ .newline := by
  induction word with
  | nil => exact ⟨by simp, fun _ => Language.nil_mem_kstar _⟩
  | cons first rest ih =>
      rw [anything, star_eq]
      constructor
      · rintro (⟨⟨⟩⟩ | ⟨_, ⟨token, rfl, other⟩, later, more, equal⟩)
        cases equal
        simpa using ⟨other, ih.1 more⟩
      · intro all
        have more := ih.2 fun token member => all token (by simp [member])
        exact .inr ⟨[first], ⟨first, rfl, all first (by simp)⟩, rest, more, rfl⟩

theorem skipRestFrom_complete (cursor : Cursor) {word rest : List Token}
    (split : cursor.upcoming = word ++ rest)
    (inside : ∀ token ∈ word, token.hasKind .newline = false) (ends : LineEnd rest) :
    (cursor.skipRestFrom (word ++ rest)).errors = cursor.errors ∧
      (cursor.skipRestFrom (word ++ rest)).upcoming = rest := by
  induction word generalizing cursor with
  | nil =>
      cases rest with
      | nil => exact ⟨rfl, split⟩
      | cons newline rest =>
          have stops : newline.hasKind .newline = true := (ends newline rfl .newline).2 rfl
          simp only [List.nil_append, Cursor.skipRestFrom, if_pos stops]
          exact ⟨trivial, split⟩
  | cons token word ih =>
      have other := inside token (by simp)
      simp only [List.cons_append, Cursor.skipRestFrom, other, Bool.false_eq_true, if_false]
      exact ih (cursor.shift token (word ++ rest)) rfl
        fun later member => inside later (by simp [member])

private theorem skipRestOfLine_accepts :
    (move Cursor.skipRestOfLine).Accepts levels anything LineEnd := by
  refine ⟨skipRestOfLine_lineBound, ?_, ?_⟩
  · intro cursor fits clean
    obtain ⟨word, split, within⟩ := (Cursor.skipRestOfLine_trace cursor).taken
    refine ⟨⟨_, rfl⟩, word, mem_anything_iff.2 ?_, split⟩
    intro token member newline
    obtain ⟨kind, other, has⟩ := within token member
    have proper := fits.wellFormed token (by simp [split, member])
    exact other ((proper.hasKind_of_newline newline kind).1 has)
  · intro cursor fits word member rest split ends
    have inside (token : Token) (among : token ∈ word) : token.hasKind .newline = false := by
      have proper := fits.wellFormed token (by simp [split, among])
      rw [Bool.eq_false_iff, ne_eq, proper.hasKind_iff (by simp) (by simp)]
      exact mem_anything_iff.1 member token among
    have complete := skipRestFrom_complete cursor split inside ends
    rw [← split] at complete
    exact complete

/-- Behind an item of a list stands nothing that an expression could go on with. -/
private theorem behind_item (kinds : List Kind) (other : .punctuation .comma ∉ kinds)
    (close : .punctuation .closeParen ∉ kinds) (token : Token) (rest : List Token)
    (mark : token.kind = .punctuation .comma ∨ token.kind = .punctuation .closeParen) :
    Avoids kinds (token :: rest) := by
  intro first next
  cases next
  rcases mark with same | same
  · rwa [same]
  · rwa [same]

private theorem callTail_accepts :
    callTail.Accepts levels
      (Words.parenthesized (Words.expression levels) *
        optional (keyword .«from» * Words.name)) LineEnd := by
  have arguments := parenthesizedList_accepts (expression_accepts levels).require
    (Rule.require_advances expression_advances) (expression_accepts levels).begins
    (fun _ opens => opens.kind_ne (.inr rfl)) (behind_item _ (by simp) (by simp))
  refine .bind arguments (fun values => .of_eq (.tokenIf_bind (fun _ =>
    .attempt_finish nameIdentifier_accepts (.pure _) fun _ => .pure _) (.pure _)
    fun _ _ ends => ends.avoids (by simp)) ?_) ?_
  · rw [without_one, Words.optional, add_comm]
    rfl
  · rintro word (⟨⟨⟩⟩ | member) rest ends
    · exact ends.avoids (by simp)
    · have begins : Begins (·.kind = .keyword .«from») (keyword .«from» * Words.name) :=
        (begins_one _).mul
      exact begins.avoids (fun token same => by simp [same]) member

theorem call_accepts :
    Grammar.call.Accepts levels (·.kind = .keyword .call) (Words.call levels) LineEnd := by
  have named : without (.keyword .expression) (without (.keyword .screen) Words.name) =
      nameExcept [.expression, .screen] := by
    rw [Words.name, without_single, without_single, nameExcept]
    simp only [List.mem_cons, List.not_mem_nil, or_false, forall_eq_or_imp, forall_eq, and_assoc,
      and_comm]
  have screens : Begins (·.kind = .keyword .screen)
      (kind (.keyword .screen) * (Words.name * anything)) := (begins_one _).mul
  have targets : Begins IsName Words.name := begins_one _
  refine .of_eq (.startingAt (begins_one _).mul (.andThen .token fun head => .tokenIf_bind
    (fun _ => .attempt_finish pythonCode_accepts (finished_lineBound _) fun _ => finished _)
    (.tokenIf_bind
      (fun _ => .attempt_andThen nameIdentifier_accepts ?_ fun screen =>
        .finish skipRestOfLine_accepts fun _ => finished _)
      (.attempt_andThen nameIdentifier_accepts (finished_lineBound _) fun target =>
        .finish callTail_accepts fun _ => finished _)
      fun member => absurd member targets.mul.nil_notMem) ?_)) ?_
  · exact .bind skipRestOfLine_lineBound fun _ => finished_lineBound _
  · rintro (member | member)
    · exact absurd member screens.nil_notMem
    · exact absurd member.1 targets.mul.nil_notMem
  · have other (token : Token) (same : token.kind = .keyword .screen) :
        token.kind ≠ .keyword .expression := by simp [same]
    rw [targets.without_mul, without_add, screens.without_eq other,
      (begins_without targets _).without_mul, named, Words.call]
    simp only [mul_assoc, add_assoc]
    rfl

/-! ## Small statements -/

private theorem optionalExpression_accepts :
    Grammar.expression.optional.Accepts levels (optional (Words.expression levels)) LineEnd := by
  refine (expression_accepts levels).optional.follow_mono fun rest ends => ⟨ends.avoids (by simp), ?_⟩
  intro token first opens
  exact opens.kind_ne (.inl rfl) ((ends token first token.kind).1 token.hasKind_self)

theorem return_accepts :
    Grammar.«return».Accepts levels (·.kind = .keyword .«return») (Words.«return» levels)
      LineEnd :=
  .startingAt (begins_one _).mul (.andThen .token fun _ =>
    .finish optionalExpression_accepts fun _ => finished _)

theorem pass_accepts :
    Grammar.pass.Accepts levels (·.kind = .keyword .pass) Words.pass LineEnd :=
  .startingAt (begins_one _) (.finish .token fun _ => .pure _)

theorem pause_accepts :
    Grammar.pause.Accepts levels (·.kind = .keyword .pause) (Words.pause levels) LineEnd :=
  .startingAt (begins_one _).mul (.andThen .token fun _ =>
    .finish optionalExpression_accepts fun _ => finished _)

theorem pythonLine_accepts :
    Grammar.pythonLine.Accepts levels (·.kind = .punctuation .dollar) Words.pythonLine LineEnd :=
  .startingAt (begins_one _).mul (.andThen .token fun _ =>
    .attempt_finish pythonCode_accepts (finished_lineBound _) fun _ => finished _)

/-! ## Labels -/

theorem parameter_accepts :
    Grammar.parameter.Accepts levels (Words.parameter levels)
      (Avoids [.punctuation .dot, .operator .assign]) := by
  refine .of_eq (.andThen .token fun token => .skip (.skip (.text token) fun _ => .pure _) fun name =>
    .tokenIf_bind (fun _ => .attempt_finish ((expression_accepts levels).require.follow_mono ?_)
      (.pure _) fun _ => .pure _) (.pure _) ?_) ?_
  · exact fun rest avoids => avoids.mono (by simp)
  · exact fun _ rest avoids => avoids.mono (by simp)
  · rw [without_one, Words.parameter, Words.optional, add_comm]
    rfl

private theorem labelHead_accepts :
    labelHead.Accepts levels
      (Words.name * (Words.parenthesized (Words.parameter levels) * mark .colon)) follow := by
  have parameters : (parenthesizedList Grammar.parameter parameter_advances).Accepts levels
      (Words.parenthesized (Words.parameter levels)) (Avoids [.punctuation .openParen]) :=
    parenthesizedList_accepts parameter_accepts _ (begins_one _).mul
      (fun _ same => by simp [same]) (behind_item _ (by simp) (by simp))
  have rest_ (name : Option Identifier) (list : List Parameter) :
      (do let _ ← attempt (token (.punctuation .colon)); pure ⟨name, list⟩ :
        Parse LabelHead).Accepts levels (mark .colon) follow :=
    .attempt_finish .token (.pure _) fun _ => .pure _
  refine .attempt_andThen nameIdentifier_accepts ?_ fun name =>
    .bind parameters (rest_ (some name)) ?_
  · exact .bind parameters.bound fun list => (rest_ none list).bound
  · intro word member rest _
    refine (begins_one _).avoids ?_ member
    intro token same
    simp [same]

theorem labelLine_accepts :
    labelLine.Accepts levels (·.kind = .keyword .label) (Words.label levels) LineEnd := by
  refine .of_eq (.startingAt (begins_one _).mul (.andThen .token fun head =>
    .finish labelHead_accepts fun _ => finished _)) ?_
  rw [Words.label]
  simp only [mul_assoc]
  rfl

/-! ## All lines -/

/-- The forms of a statement line, each with the kind that opens it. -/
def forms (levels : Nat) : List (Kind × Language Token) :=
  [(.keyword .define, Words.define), (.keyword .default, Words.defaultValue),
    (.keyword .label, Words.label levels), (.keyword .jump, Words.jump),
    (.keyword .call, Words.call levels), (.keyword .«return», Words.«return» levels),
    (.keyword .pass, Words.pass), (.keyword .pause, Words.pause levels),
    (.punctuation .dollar, Words.pythonLine)]

private theorem choice_accepts {forms : List (Kind × Language Token)}
    {rules : List (Rule Statement)}
    (each : List.Forall₂ (fun form rule => rule.Accepts levels (·.kind = form.1) form.2 follow)
      forms rules) (nodup : (forms.map Prod.fst).Nodup) :
    (Rule.choice rules).Accepts levels (·.kind ∈ forms.map Prod.fst) (forms.map Prod.snd).sum
      follow := by
  induction each with
  | nil => simpa using Rule.Accepts.choice_nil
  | @cons form rule forms rules one rest ih =>
      rw [List.map_cons, List.nodup_cons] at nodup
      refine ((one.choice_cons (ih nodup.2) ?_).of_eq ?_).of_opens ?_
      · intro token same member
        rw [same] at member
        exact nodup.1 member
      · rw [List.map_cons, List.sum_cons]
      · simp

theorem lineStatement_accepts :
    lineStatement.Accepts levels (·.kind ∈ openers) (Words.statement levels) LineEnd := by
  have each : List.Forall₂
      (fun form rule => Rule.Accepts levels (·.kind = form.1) form.2 LineEnd rule)
      (forms levels) lineForms := by
    refine .cons define_accepts (.cons defaultValue_accepts (.cons labelLine_accepts ?_))
    refine .cons jump_accepts (.cons call_accepts (.cons return_accepts ?_))
    exact .cons pass_accepts (.cons pause_accepts (.cons pythonLine_accepts .nil))
  refine (choice_accepts each (by simp [forms])).of_eq ?_
  simp only [forms, List.map_cons, List.map_nil, List.sum_cons, List.sum_nil, add_zero,
    Words.statement, add_assoc]

/-- A statement line is read without an error exactly if its statement is, and reaches its end. -/
theorem ownLine_clean_parts {cursor : Cursor} {line : Line} {tail : List Token}
    (at_ : cursor.AtLine line tail) (head : line.IsHead) :
    (ownLine cursor).2.errors = cursor.errors ↔
      (lineStatement.parse cursor).2.errors = cursor.errors ∧
        (lineStatement.parse cursor).2.upcoming = tail := by
  have starts := (isHead_iff at_).2 head
  have read : (ownLine cursor).2 = (lineStatement.parse cursor).2.expectEndOfLine.2 := by
    rw [ownLine, if_pos starts]
  have trace := lineStatement_lineBound.parse.trace cursor
  obtain ⟨taken, left, split, next⟩ := at_.left_of_trace trace
  have inside (token : Token) (member : token ∈ left) : token.hasKind .newline = false :=
    at_.inside token (by simp [split, member])
  obtain ⟨-, leads, ends⟩ := Cursor.expectEndOfLine_lands _ next inside at_.ends
  rw [read]
  constructor
  · intro clean
    obtain ⟨clean₁, clean₂⟩ := clean_parts trace.errors_prefix leads.errors clean
    rw [ends.1 clean₂, List.nil_append] at next
    exact ⟨clean₁, next⟩
  · rintro ⟨clean, lands⟩
    rw [lands] at next
    have none_ : left = [] := List.append_left_eq_self.1 next.symm
    exact (ends.2 none_).trans clean

/-- A line is read without an error exactly if it is a word of the language. -/
theorem ownLine_clean_iff {cursor : Cursor} {line : Line} {tail : List Token}
    (at_ : cursor.AtLine line tail) (head : line.IsHead) :
    (ownLine cursor).2.errors = cursor.errors ↔
      line.tokens ∈ Words.statement cursor.levels := by
  have fits : cursor.Fits cursor.levels := ⟨rfl, at_.wellFormed⟩
  have accepts : lineStatement.require.Accepts cursor.levels (Words.statement cursor.levels)
      LineEnd := lineStatement_accepts.require
  have required : lineStatement.require cursor = lineStatement.parse cursor := by
    rw [Rule.require, if_pos ((isHead_iff at_).2 head)]
  rw [ownLine_clean_parts at_ head, ← required]
  constructor
  · rintro ⟨clean, lands⟩
    obtain ⟨-, word, member, whole⟩ := accepts.sound cursor fits clean
    rw [lands, at_.upcoming] at whole
    rwa [List.append_cancel_right whole]
  · intro member
    exact accepts.complete cursor fits line.tokens member tail at_.upcoming at_.ends

/-- A line is over where its own line is, except that a label reads its body from there on. -/
theorem line_behind (bodies : BodyReader) {cursor : Cursor} {line : Line} {tail : List Token}
    (at_ : cursor.AtLine line tail) (head : line.IsHead) :
    (Grammar.line bodies cursor).2 =
      if line.IsLabel then (bodies.read line.indent (ownLine cursor).2).2
      else (ownLine cursor).2 := by
  obtain ⟨statement, found, kind, start⟩ := ownLine_of_isHead at_ head
  rw [line_eq]
  split
  · next label body span behind equal =>
      rw [equal] at found
      cases found
      have isLabel : line.IsLabel := kind.symm
      have column : span.start.column = line.indent := congrArg Position.column start
      rw [if_pos isLabel, equal, readBody, column]
  · next other =>
      have notLabel : ¬line.IsLabel := by
        intro isLabel
        have same : statement.opener = .keyword .label := kind.trans isLabel
        cases statement with
        | label label body span => exact other label body span _ (Prod.ext found rfl)
        | _ => cases same
      rw [if_neg notLabel]

/-- A statement line is left at a cursor behind it, whatever stands on it; from there on a label reads
its body.  The cursor holds an error more exactly if the line is not a word of the language. -/
theorem line_accepts {cursor : Cursor} {line : Line} {tail : List Token}
    (at_ : cursor.AtLine line tail) (head : line.IsHead) :
    ∃ behind : Cursor, behind.upcoming = tail.tail ∧ cursor.errors <+: behind.errors ∧
      (∀ bodies : BodyReader, (Grammar.line bodies cursor).2 =
        if line.IsLabel then (bodies.read line.indent behind).2 else behind) ∧
      (behind.errors = cursor.errors ↔ line.tokens ∈ Words.statement cursor.levels) := by
  obtain ⟨lands, leads⟩ := ownLine_lands at_
  exact ⟨_, lands, leads.errors, fun bodies => line_behind bodies at_ head,
    ownLine_clean_iff at_ head⟩

end Grammar

end NovelScript
