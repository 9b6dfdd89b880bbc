import NovelScript.Proofs.PythonInventory

/-!
# Python on statement lines

A parse without errors makes one code out of each python token that it consumes, in their order.
-/

namespace NovelScript

open Token Words

/-! ## Results and the python they take -/

namespace Parse

/-- Without an error a parse comes back, with a result that fits the python codes it consumed. -/
structure Yields {α : Type} (source : List Char) (post : List PythonCode → α → Prop)
    (parse : Parse α) : Prop where
  bound : parse.LineBound
  yields : ∀ cursor : Cursor, cursor.source = source →
    (∀ token ∈ cursor.upcoming, token.WellFormed) → (parse cursor).2.errors = cursor.errors →
      ∃ value word, (parse cursor).1 = some value ∧
        cursor.upcoming = word ++ (parse cursor).2.upcoming ∧
        post (pythonCodes source word) value

namespace Yields

variable {α β : Type} {source : List Char}

theorem of_accepts {parse : Parse α} {words : Nat → Language Token}
    {follow : List Token → Prop} (accepts : ∀ levels, parse.Accepts levels (words levels) follow)
    (silent : ∀ levels, Silent (words levels)) :
    Yields source (fun codes _ => codes = []) parse := by
  refine ⟨(accepts 0).bound, ?_⟩
  intro cursor same proper clean
  obtain ⟨⟨value, found⟩, word, member, split⟩ :=
    (accepts cursor.levels).sound cursor ⟨rfl, proper⟩ clean
  exact ⟨value, word, found, split, (silent _ word member).pythonCodes_eq source⟩

theorem and_gives {parse : Parse α} {post : List PythonCode → α → Prop} {also : α → Prop}
    (yields : Yields source post parse) (gives : Gives also parse) :
    Yields source (fun codes value => post codes value ∧ also value) parse := by
  refine ⟨yields.bound, ?_⟩
  intro cursor same proper clean
  obtain ⟨value, word, found, split, holds⟩ := yields.yields cursor same proper clean
  exact ⟨value, word, found, split, holds, gives cursor value found⟩

theorem mono {parse : Parse α} {post more : List PythonCode → α → Prop}
    (yields : Yields source post parse) (implies : ∀ codes value, post codes value → more codes value) :
    Yields source more parse := by
  refine ⟨yields.bound, ?_⟩
  intro cursor same proper clean
  obtain ⟨value, word, found, split, holds⟩ := yields.yields cursor same proper clean
  exact ⟨value, word, found, split, implies _ _ holds⟩

theorem pure {post : List PythonCode → α → Prop} {value : α} (holds : post [] value) :
    Yields source post (pure value) :=
  ⟨.pure value, fun _ _ _ _ => ⟨value, [], rfl, rfl, holds⟩⟩

/-- The next parse has to yield what it should behind the values only that the first one has. -/
theorem bind_of {first : Parse α} {next : α → Parse β} {known : α → Prop}
    {middle : List PythonCode → α → Prop} {post : List PythonCode → β → Prop}
    (start : Yields source middle first)
    (knows : ∀ cursor : Cursor, (∀ token ∈ cursor.upcoming, token.WellFormed) → ∀ value,
      (first cursor).1 = some value → known value)
    (bound : ∀ value, (next value).LineBound)
    (behind : ∀ value, known value →
      Yields source (fun more result => ∀ codes, middle codes value → post (codes ++ more) result)
        (next value)) : Yields source post (first >>= next) := by
  refine ⟨.bind start.bound bound, ?_⟩
  intro cursor same proper clean
  have moved := start.bound.trace cursor
  cases found : (first cursor).1 with
  | none =>
      rw [bind_none found] at clean
      obtain ⟨value, _, some_, -⟩ := start.yields cursor same proper clean
      simp [found] at some_
  | some value =>
      have yields := behind value (knows cursor proper value found)
      rw [bind_some found] at clean ⊢
      have later := yields.bound.trace (first cursor).2
      obtain ⟨clean₁, clean₂⟩ :=
        clean_parts moved.errors_prefix later.errors_prefix clean
      obtain ⟨_, front, again, one, holds⟩ := start.yields cursor same proper clean₁
      rw [found] at again
      cases again
      obtain ⟨result, back, ended, two, implied⟩ := yields.yields _ (moved.source_eq.trans same)
        (fun token member => proper token (moved.suffix.subset member)) clean₂
      refine ⟨result, front ++ back, ended, by rw [one, two, List.append_assoc], ?_⟩
      rw [pythonCodes_append]
      exact implied _ holds

theorem bind {first : Parse α} {next : α → Parse β} {middle : List PythonCode → α → Prop}
    {post : List PythonCode → β → Prop} (start : Yields source middle first)
    (behind : ∀ value,
      Yields source (fun more result => ∀ codes, middle codes value → post (codes ++ more) result)
        (next value)) : Yields source post (first >>= next) :=
  start.bind_of (fun _ _ _ _ => trivial) (fun value => (behind value).bound)
    fun value _ => behind value

theorem silent {first : Parse α} {next : α → Parse β} {post : List PythonCode → β → Prop}
    (start : Yields source (fun codes _ => codes = []) first)
    (behind : ∀ value, Yields source post (next value)) : Yields source post (first >>= next) := by
  refine start.bind fun value => (behind value).mono ?_
  rintro more result holds codes rfl
  exact holds

theorem attempt_bind {first : Parse α} {next : Option α → Parse β}
    {middle : List PythonCode → α → Prop} {post : List PythonCode → β → Prop}
    (start : Yields source middle first) (fails : (next none).LineBound)
    (behind : ∀ value,
      Yields source (fun more result => ∀ codes, middle codes value → post (codes ++ more) result)
        (next (some value))) : Yields source post (first.attempt >>= next) := by
  have whole := start.bind behind
  have bound (result : Option α) : (next result).LineBound := by
    cases result with
    | none => exact fails
    | some value => exact (behind value).bound
  refine ⟨.bind start.bound.attempt bound, ?_⟩
  intro cursor same proper clean
  obtain ⟨value, _, found, -⟩ :=
    start.yields cursor same proper (clean_of_attempt start.bound bound clean)
  rw [attempt_bind_eq found] at clean ⊢
  exact whole.yields cursor same proper clean

theorem tokenIf_bind {kind : Kind} [plain : kind.IsPlain] {next : Option Token → Parse β}
    {post : List PythonCode → β → Prop}
    (there : ∀ token, Yields source post (next (some token)))
    (absent : Yields source post (next none)) :
    Yields source post (Parse.tokenIf kind >>= next) := by
  refine ⟨?_, ?_⟩
  · refine .bind (tokenIf_lineBound plain.newline) fun result => ?_
    cases result with
    | none => exact absent.bound
    | some token => exact (there token).bound
  · intro cursor same proper clean
    by_cases tested : cursor.test kind = true
    · obtain ⟨token, rest, upcoming, has⟩ := Cursor.next_of_peek tested
      have equal := (proper token (by simp [upcoming])).hasKind_plain.1 has
      have behind (other : Token) (member : other ∈ rest) : other.WellFormed :=
        proper other (by simp [upcoming, member])
      rw [tokenIf_some upcoming tested] at clean ⊢
      obtain ⟨value, word, found, split, holds⟩ :=
        (there token).yields (cursor.shift token rest) same behind clean
      refine ⟨value, token :: word, found, ?_, ?_⟩
      · rw [upcoming, List.cons_append, ← split]
        rfl
      · have silent : NoPython [token] := by simp [NoPython, isPython, equal, plain.python, plain.invalid]
        have codes := pythonCodes_append source [token] word
        rw [silent.pythonCodes_eq, List.nil_append] at codes
        rw [show token :: word = [token] ++ word from rfl, codes]
        exact holds
    · rw [tokenIf_none tested] at clean ⊢
      exact absent.yields cursor same proper clean

theorem token {kind : Kind} [kind.IsPlain] :
    Yields source (fun codes _ => codes = []) (Parse.token kind) := by
  have accepts (levels : Nat) :
      Accepts levels (Words.kind kind) (fun _ => True) (Parse.token kind) := .token
  exact .of_accepts accepts fun _ => Silent.kind

theorem spanFrom (start : Position) :
    Yields source (fun codes _ => codes = []) (Parse.spanFrom start) := by
  have accepts (levels : Nat) : Accepts levels 1 (fun _ => True) (Parse.spanFrom start) :=
    .spanFrom start
  exact .of_accepts accepts fun _ => Silent.empty

theorem require {rule : Rule α} {post : List PythonCode → α → Prop} (bound : rule.LineBound)
    (yields : Yields source post rule.parse) : Yields source post rule.require := by
  refine ⟨Rule.require_lineBound bound, ?_⟩
  intro cursor same proper clean
  unfold Rule.require at clean ⊢
  split at clean
  · next tested =>
      rw [if_pos tested]
      exact yields.yields cursor same proper clean
  · exact absurd clean (Rule.Accepts.recordUnexpected_ne cursor)

end Yields

end Parse

namespace Grammar

open Parse

variable {source : List Char}

/-! ## Bindings -/

theorem pythonCode_yields : Yields source (fun codes code => codes = [code]) pythonCode := by
  refine ⟨pythonCode_lineBound, ?_⟩
  intro cursor same proper clean
  have accepts : pythonCode.Accepts cursor.levels Words.python (fun _ => True) := pythonCode_accepts
  obtain ⟨-, word, ⟨token, rfl, python⟩, next⟩ := accepts.sound cursor ⟨rfl, proper⟩ clean
  have wellFormed := proper token (by simp [next])
  have taken := token_eq next (wellFormed.hasKind_python_iff.2 python)
  have read : (pythonCode cursor).1 = some (token.pythonCode source) := by
    unfold pythonCode
    rw [bind_some (congrArg Prod.fst taken), taken, ← same]
    rfl
  exact ⟨_, [token], read, next, by simp [pythonCodes, isPython_iff.2 python]⟩

theorem python_yields :
    Yields source (fun codes expression => expression.pythonCodes = codes)
      Grammar.python.require := by
  refine .require python_lineBound (pythonCode_yields.bind fun code => .pure ?_)
  rintro codes rfl
  rfl

theorem assignmentAfter_yields (operators : List Operator) (left : Expression) :
    Yields source (fun codes assignment => assignment.pythonCodes = left.pythonCodes ++ codes)
      (assignmentAfter operators Grammar.python left) := by
  have plain := isPlain_of_operators operators
  have accepts (levels : Nat) : (Parse.anyToken (operators.map Kind.operator)).Accepts levels
      (one (·.kind ∈ operators.map Kind.operator)) (fun _ => True) := .anyToken plain
  have silent : Silent (one (·.kind ∈ operators.map Kind.operator)) := by
    refine .one fun token member => ?_
    obtain ⟨operator, -, same⟩ := List.mem_map.1 member
    simp [isPython, ← same]
  have start : Yields source (fun codes _ => codes = [])
      (Parse.anyToken (operators.map Kind.operator)) := .of_accepts accepts fun _ => silent
  refine start.bind_of (fun cursor proper token found => Accepts.anyToken_kind plain proper found)
    ?_ ?_
  · intro token
    split
    · exact .bind (Rule.require_lineBound python_lineBound) fun _ => .pure _
    · exact fail_lineBound
  · intro token member
    obtain ⟨operator, -, same⟩ := List.mem_map.1 member
    rw [← same]
    refine python_yields.bind fun right => .pure ?_
    rintro codes equal _ rfl
    simp [Assignment.pythonCodes, equal]

theorem reference_yields :
    Yields source (fun codes left => codes = [] ∧ Plain left) Grammar.reference.require := by
  have accepts (levels : Nat) : Grammar.reference.require.Accepts levels Words.reference
      (Avoids [.punctuation .dot]) := reference_accepts.require
  exact (Yields.of_accepts accepts fun _ => .reference).and_gives
    (reference_gives fun _ => rfl).require

theorem priority_yields (head : Token) :
    Yields source (fun codes _ => codes = []) (priority head) :=
  .of_accepts (fun _ => priority_accepts head) fun _ => .optional .kind

private def partCodes (parts : Option PythonCode × Option Assignment) : List PythonCode :=
  parts.1.toList ++ Assignment.pythonCodesOption parts.2

theorem definition_yields :
    Yields source (fun codes parts => partCodes parts = codes) definition := by
  have assigns (index : Option PythonCode) (left : Expression) :
      Yields source
        (fun codes parts => partCodes parts = index.toList ++ (left.pythonCodes ++ codes))
        (do pure (index, ← attempt (assignmentAfter defineOperators Grammar.python left))) := by
    refine (assignmentAfter_yields defineOperators left).attempt_bind (.pure _) fun value => ?_
    refine .pure fun codes equal => ?_
    simp [partCodes, Assignment.pythonCodesOption, equal]
  refine reference_yields.attempt_bind (.pure _) fun left => ?_
  refine .tokenIf_bind (fun _ => ?_) ?_
  · refine pythonCode_yields.attempt_bind (.pure _) fun index => ?_
    refine Yields.attempt_bind .token (.pure _) fun _ => (assigns (some index) left).mono ?_
    rintro codes parts equal _ rfl _ rfl _ ⟨rfl, plain⟩
    rw [equal, plain]
    rfl
  · refine (assigns none left).mono ?_
    rintro codes parts equal _ ⟨rfl, plain⟩
    rw [equal, plain]
    rfl

theorem define_yields :
    Yields source (fun codes statement => statement.pythonCodes = codes) Grammar.define.require := by
  refine .require define_opens.lineBound ?_
  refine .silent .token fun head => (priority_yields head).silent fun priority => ?_
  refine definition_yields.bind fun parts => (Yields.spanFrom head.start).silent fun span => ?_
  refine .pure ?_
  rintro codes rfl
  simp [Statement.pythonCodes, partCodes]

theorem defaultValue_yields :
    Yields source (fun codes statement => statement.pythonCodes = codes)
      Grammar.defaultValue.require := by
  have assigns : Yields source (fun codes assignment => assignment.pythonCodes = codes)
      (assignment Grammar.reference [.assign] Grammar.python).require := by
    refine .require (assignment_lineBound _ reference_lineBound python_lineBound) ?_
    refine reference_yields.bind fun left => (assignmentAfter_yields _ left).mono ?_
    rintro codes value equal _ ⟨rfl, plain⟩
    rw [equal, plain]
  refine .require defaultValue_opens.lineBound ?_
  refine .silent .token fun head => (priority_yields head).silent fun priority => ?_
  refine assigns.attempt_bind (finished_lineBound _) fun value => ?_
  refine (Yields.spanFrom head.start).silent fun span => .pure ?_
  rintro codes rfl
  simp [Statement.pythonCodes, Assignment.pythonCodesOption]

/-! ## Transfers of control and python lines -/

private theorem finished_yields {head : Token} {post : List PythonCode → Statement → Prop}
    {make : Span → Statement} (holds : ∀ span, post [] (make span)) :
    Yields source post (do pure (make (← spanFrom head.start))) :=
  (Yields.spanFrom head.start).silent fun span => .pure (holds span)

theorem jump_yields :
    Yields source (fun codes statement => statement.pythonCodes = codes) Grammar.jump.require := by
  refine .require jump_opens.lineBound (.silent .token fun head => .tokenIf_bind (fun _ => ?_) ?_)
  · refine pythonCode_yields.attempt_bind (finished_lineBound _)
      fun code => finished_yields ?_
    rintro span codes rfl
    rfl
  · have target : Yields source (fun codes _ => codes = []) nameIdentifier := by
      have accepts (levels : Nat) : nameIdentifier.Accepts levels Words.name (fun _ => True) :=
        nameIdentifier_accepts
      exact .of_accepts accepts fun _ => .name
    refine target.attempt_bind (finished_lineBound _)
      fun name => finished_yields ?_
    rintro span codes rfl
    rfl

theorem pythonLine_yields :
    Yields source (fun codes statement => statement.pythonCodes = codes)
      Grammar.pythonLine.require := by
  refine .require pythonLine_opens.lineBound (.silent .token fun head => ?_)
  refine pythonCode_yields.attempt_bind (finished_lineBound _)
    fun code => finished_yields ?_
  rintro span codes rfl
  rfl

private def computedCall (head : Token) : Parse Statement := do
  let code ← attempt pythonCode
  pure (.call ⟨none, [], code, none, none, ← spanFrom head.start⟩)

private def namedCall (head : Token) : Parse Statement := do
  match ← tokenIf (.keyword .screen) with
  | some _ =>
      let screen ← attempt nameIdentifier
      move Cursor.skipRestOfLine
      pure (.call ⟨none, [], none, screen, none, ← spanFrom head.start⟩)
  | none =>
      match ← attempt nameIdentifier with
      | none => pure (.call ⟨none, [], none, none, none, ← spanFrom head.start⟩)
      | some target =>
          let (arguments, site) ← callTail
          pure (.call ⟨some target, arguments, none, none, site, ← spanFrom head.start⟩)

private theorem call_parse {cursor : Cursor} {head : Token} {rest : List Token}
    (next : cursor.upcoming = head :: rest) (has : head.hasKind (.keyword .call) = true) :
    Grammar.call.parse cursor = (tokenIf (.keyword .expression) >>= fun computed =>
      match computed with
      | some _ => computedCall head
      | none => namedCall head) (cursor.shift head rest) := by
  have taken := token_eq next has
  simp only [Grammar.call, Rule.startingAt]
  rw [bind_some (congrArg Prod.fst taken), taken]
  rfl

private theorem computedCall_yields (head : Token) :
    Yields source (fun codes statement => statement.pythonCodes = codes) (computedCall head) := by
  refine pythonCode_yields.attempt_bind (finished_lineBound _)
    fun code => finished_yields ?_
  rintro span codes rfl
  rfl

private theorem namedCall_gives (head : Token) :
    Gives (·.pythonCodes = []) (namedCall head) := by
  refine .andThen fun screen => ?_
  cases screen with
  | some _ => exact .andThen fun _ => .andThen fun _ => .andThen fun _ => .pure rfl
  | none =>
      refine .andThen fun target => ?_
      cases target with
      | none => exact .andThen fun _ => .pure rfl
      | some target =>
          refine .bind callTail_gives fun parts plain => .andThen fun span => .pure ?_
          exact List.flatMap_eq_nil_iff.2 plain

/-- Only a call of an expression has python to read; a screen may be followed by anything. -/
theorem call_codes {cursor : Cursor} {head : Token} {rest : List Token}
    (next : cursor.upcoming = head :: rest) (has : head.hasKind (.keyword .call) = true)
    (same : cursor.source = source) (proper : ∀ token ∈ cursor.upcoming, token.WellFormed)
    (clean : (Grammar.call.parse cursor).2.errors = cursor.errors) :
    ∃ statement word, (Grammar.call.parse cursor).1 = some statement ∧
      cursor.upcoming = word ++ (Grammar.call.parse cursor).2.upcoming ∧
      (statement.pythonCodes = pythonCodes source word ∨ statement.pythonCodes = [] ∧
        head.kind = .keyword .call ∧ ∀ second ∈ rest.head?, second.kind ≠ .keyword .expression) := by
  have call_ : head.kind = .keyword .call :=
    (proper head (by simp [next])).hasKind_plain.1 has
  have parsed := call_parse next has
  have inside : (cursor.shift head rest).upcoming = rest := rfl
  by_cases computed : (cursor.shift head rest).test (.keyword .expression) = true
  · obtain ⟨second, behind, upcoming, is⟩ := Cursor.next_of_peek computed
    rw [inside] at upcoming
    subst upcoming
    have read : Grammar.call.parse cursor =
        computedCall head ((cursor.shift head (second :: behind)).shift second behind) := by
      rw [parsed, tokenIf_some inside computed]
    have second_ : second.kind = .keyword .expression :=
      (proper second (by simp [next])).hasKind_plain.1 is
    have later (token : Token) (member : token ∈ behind) : token.WellFormed :=
      proper token (by simp [next, member])
    rw [read] at clean ⊢
    obtain ⟨statement, word, found, split, codes⟩ := (computedCall_yields head).yields
      ((cursor.shift head (second :: behind)).shift second behind) same later clean
    refine ⟨statement, head :: second :: word, found, ?_, .inl ?_⟩
    · rw [next, List.cons_append, List.cons_append, ← split]
      rfl
    · rw [codes]
      simp [pythonCodes, isPython, call_, second_]
  · rw [tokenIf_none computed] at parsed
    -- What was skipped behind a screen is not known, only that none of it became a code.
    obtain ⟨statement, found, -⟩ := call_opens.parse next has
    obtain ⟨word, split, -⟩ := (call_opens.lineBound.parse.trace cursor).taken
    refine ⟨statement, word, found, split, .inr ⟨?_, call_, ?_⟩⟩
    · rw [parsed] at found
      exact namedCall_gives head _ statement found
    · intro second first is
      refine computed ?_
      have proper_ := proper second (by simp [next, List.mem_of_mem_head? first])
      simpa [Cursor.test, Cursor.peek?, inside, Option.mem_def.1 first] using
        proper_.hasKind_plain.2 is

/-! ## All statement lines -/

private theorem silent_yields {rule : Rule Statement} {opens : Token → Prop}
    {words : Nat → Language Token} (accepts : ∀ levels, rule.Accepts levels opens (words levels) LineEnd)
    (silent : ∀ levels, Silent (words levels)) (gives : Gives (·.pythonCodes = []) rule.parse) :
    Yields source (fun codes statement => statement.pythonCodes = codes) rule.require := by
  have reads : Yields source (fun codes _ => codes = []) rule.require :=
    .of_accepts (fun levels => (accepts levels).require) silent
  exact (reads.and_gives gives.require).mono fun codes statement holds => holds.2.trans holds.1.symm

theorem form_yields {rule : Rule Statement} (member : rule ∈ lineForms) :
    rule = Grammar.call ∨
      Yields source (fun codes statement => statement.pythonCodes = codes) rule.require := by
  simp only [lineForms, List.cons_append, List.nil_append, List.mem_cons, List.not_mem_nil,
    or_false] at member
  rcases member with rfl | rfl | rfl | rfl | rfl | rfl | rfl | rfl | rfl
  · exact .inr define_yields
  · exact .inr defaultValue_yields
  · exact .inr (silent_yields (fun _ => labelLine_accepts) Silent.label label_gives)
  · exact .inr jump_yields
  · exact .inl rfl
  · exact .inr (silent_yields (fun _ => return_accepts) Silent.return return_gives)
  · exact .inr (silent_yields (fun _ => pass_accepts) (fun _ => .kind) pass_gives)
  · exact .inr (silent_yields (fun _ => pause_accepts) Silent.pause pause_gives)
  · exact .inr pythonLine_yields

/-- A statement line makes one code out of each python token, except where a screen is called. -/
theorem lineStatement_codes {cursor : Cursor} {head : Token} {rest : List Token}
    (next : cursor.upcoming = head :: rest) (starts : lineStatement.starts cursor = true)
    (same : cursor.source = source) (proper : ∀ token ∈ cursor.upcoming, token.WellFormed)
    (clean : (lineStatement.parse cursor).2.errors = cursor.errors) :
    ∃ statement word, (lineStatement.parse cursor).1 = some statement ∧
      cursor.upcoming = word ++ (lineStatement.parse cursor).2.upcoming ∧
      (statement.pythonCodes = pythonCodes source word ∨ statement.pythonCodes = [] ∧
        head.kind = .keyword .call ∧ ∀ second ∈ rest.head?, second.kind ≠ .keyword .expression) := by
  obtain ⟨rule, found⟩ : ∃ rule, lineForms.find? (·.starts cursor) = some rule := by
    rw [← Option.isSome_iff_exists, List.find?_isSome]
    exact List.any_eq_true.1 starts
  have parsed : lineStatement.parse cursor = rule.parse cursor := Rule.choice_some found
  have tested : rule.starts cursor = true := by simpa using List.find?_some found
  rw [parsed] at clean ⊢
  rcases form_yields (List.mem_of_find?_eq_some found) with rfl | yields
  · have has : head.hasKind (.keyword .call) = true := by
      simpa [call_opens.starts_eq, Cursor.test, Cursor.peek?, next] using tested
    exact call_codes next has same proper clean
  · have required : rule.require cursor = rule.parse cursor := by rw [Rule.require, if_pos tested]
    rw [← required] at clean ⊢
    obtain ⟨statement, word, found, split, codes⟩ := yields.yields cursor same proper clean
    exact ⟨statement, word, found, split, .inl codes⟩

end Grammar

end NovelScript
