import NovelScript.Proofs.DocumentAcceptance

/-!
# Leaves of syntax trees

The leaves of a syntax tree are its names, literals and python.  Each was made of visible tokens of
the script, whether the line around it was read without an error or not: of a single one, or for a
dotted name of the name and a dot and a further name for each of its attributes.
-/

namespace NovelScript

/-! ## Leaves -/

/-- A part of a syntax tree that holds text. -/
inductive Leaf where
  | identifier (identifier : Identifier)
  | literal (literal : Literal)
  | reference (reference : Reference)
  | python (code : PythonCode)
  deriving DecidableEq, Repr

def Expression.leaves : Expression → List Leaf
  | .literal value => [.literal value]
  | .reference name => [.reference name]
  | .parenthesized inner _ => inner.leaves
  | .assignment left _ right _ => left.leaves ++ right.leaves
  | .python code => [.python code]

def Parameter.leaves (parameter : Parameter) : List Leaf :=
  .identifier parameter.name :: parameter.default.toList.flatMap Expression.leaves

def LabelHead.leaves (head : LabelHead) : List Leaf :=
  head.name.toList.map .identifier ++ head.parameters.flatMap Parameter.leaves

def Assignment.leaves (assignment : Assignment) : List Leaf := assignment.toExpression.leaves

def Call.leaves (call : Call) : List Leaf :=
  call.target.toList.map .identifier ++ call.arguments.flatMap Expression.leaves ++
    call.expression.toList.map .python ++ call.screen.toList.map .identifier ++
    call.returnSite.toList.map .identifier

namespace Statement

/-- The leaves on the line of a statement, but for the priority; a label's body has its own. -/
def leaves : Statement → List Leaf
  | .define binding =>
      binding.assignment.toList.flatMap Assignment.leaves ++ binding.index.toList.map .python
  | .defaultValue binding => binding.assignment.toList.flatMap Assignment.leaves
  | .label head _ _ => head.leaves
  | .jump transfer =>
      transfer.target.toList.map .identifier ++ transfer.expression.toList.map .python
  | .call transfer => transfer.leaves
  | .return value _ => value.toList.flatMap Expression.leaves
  | .pass _ => []
  | .pause duration _ => duration.toList.flatMap Expression.leaves
  | .python code _ => code.toList.map .python

def priority? : Statement → Option Literal
  | .define binding => some binding.priority
  | .defaultValue binding => some binding.priority
  | _ => none

end Statement

/-! ## Tokens of leaves -/

variable {source : List Char}

/-- The tokens of a dotted name. -/
def Reference.tokens (first : Token) (segments : List (Token × Token)) : List Token :=
  first :: segments.flatMap fun segment => [segment.1, segment.2]

/-- A name with a dot and a further name for each attribute. -/
def Reference.path (source : List Char) (name : String) (segments : List (Token × Token)) :
    String :=
  segments.foldl (fun path segment => path ++ "." ++ segment.2.value source) name

/-- A name that was made of its first token and of a dot and a further name for each attribute. -/
structure Reference.MadeOf (source : List Char) (reference : Reference) (first : Token)
    (segments : List (Token × Token)) : Prop where
  visible : tokens first segments <:+: Token.visible source
  head : first.hasKind .identifier = true
  dotted : ∀ segment ∈ segments,
    segment.1.hasKind (.punctuation .dot) = true ∧ segment.2.isName = true
  name : reference.name = path source (first.value source) segments
  span : reference.span =
    ⟨first.start, ((segments.getLast?.map Prod.snd).getD first).stop.max first.start⟩

namespace Reference.MadeOf

variable {reference : Reference} {first : Token} {segments : List (Token × Token)}

theorem mem (made : reference.MadeOf source first segments) {token : Token}
    (member : token ∈ tokens first segments) : token ∈ Token.ofText source :=
  List.mem_of_mem_filter (made.visible.subset member)

theorem first_mem (made : reference.MadeOf source first segments) : first ∈ Token.ofText source :=
  made.mem List.mem_cons_self

theorem segment_mem (made : reference.MadeOf source first segments) {segment : Token × Token}
    (member : segment ∈ segments) :
    segment.1 ∈ Token.ofText source ∧ segment.2 ∈ Token.ofText source := by
  have inside (token : Token) (own : token ∈ [segment.1, segment.2]) :
      token ∈ Token.ofText source :=
    made.mem (List.mem_cons_of_mem first (List.mem_flatMap.2 ⟨segment, member, own⟩))
  exact ⟨inside segment.1 (by simp), inside segment.2 (by simp)⟩

end Reference.MadeOf

/-- A leaf that was made of tokens of the script. -/
def Leaf.IsRead (source : List Char) : Leaf → Prop
  | .identifier name => ∃ token ∈ Token.ofText source, token.isName = true ∧
      name = ⟨token.value source, token.span⟩
  | .literal value => ∃ token ∈ Token.ofText source, token.hasKind (.literal value.kind) = true ∧
      value = ⟨value.kind, token.value source, token.span⟩
  | .reference name => ∃ first segments, name.MadeOf source first segments
  | .python code => ∃ token ∈ Token.ofText source, token.hasKind .python = true ∧
      code = ⟨token.value source, !token.isInvalid, token.span⟩

def AllRead (source : List Char) (leaves : List Leaf) : Prop := ∀ leaf ∈ leaves, leaf.IsRead source

namespace AllRead

variable {leaves others : List Leaf}

theorem nil : AllRead source [] := by simp [AllRead]

theorem cons {leaf : Leaf} (read : leaf.IsRead source) (rest : AllRead source leaves) :
    AllRead source (leaf :: leaves) :=
  List.forall_mem_cons.2 ⟨read, rest⟩

theorem singleton {leaf : Leaf} (read : leaf.IsRead source) : AllRead source [leaf] :=
  cons read nil

theorem append (one : AllRead source leaves) (two : AllRead source others) :
    AllRead source (leaves ++ others) :=
  List.forall_mem_append.2 ⟨one, two⟩

theorem flatMap {items : List α} {toLeaves : α → List Leaf}
    (read : ∀ item ∈ items, AllRead source (toLeaves item)) :
    AllRead source (items.flatMap toLeaves) := by
  intro leaf member
  obtain ⟨item, among, inside⟩ := List.mem_flatMap.1 member
  exact read item among leaf inside

theorem option {value : Option α} {toLeaves : α → List Leaf}
    (read : ∀ item ∈ value, AllRead source (toLeaves item)) :
    AllRead source (value.toList.flatMap toLeaves) :=
  flatMap (by simpa using read)

theorem leaf {value : Option α} {toLeaf : α → Leaf}
    (read : ∀ item ∈ value, (toLeaf item).IsRead source) :
    AllRead source (value.toList.map toLeaf) := by
  cases value with
  | none => exact nil
  | some item => exact singleton (read item rfl)

end AllRead

/-- A statement whose leaves were read.  Its priority was read too, or stands right behind the token
that opens the statement. -/
structure Statement.IsRead (source : List Char) (statement : Statement) : Prop where
  leaves : AllRead source statement.leaves
  integer : ∀ priority ∈ statement.priority?, priority.kind = .integer
  priority : ∀ priority ∈ statement.priority?, (Leaf.literal priority).IsRead source ∨
    ∃ head ∈ Token.ofText source, head.kind = statement.opener ∧
      head.start = statement.span.start ∧ priority = ⟨.integer, "0", .emptyAt head.stop⟩

theorem Statement.own_isRead {statement : Statement} :
    statement.own.IsRead source ↔ statement.IsRead source := by
  cases statement with
  | label head body span =>
      exact ⟨fun read => ⟨read.leaves, by simp [priority?], by simp [priority?]⟩,
        fun read => ⟨read.leaves, by simp [own, priority?], by simp [own, priority?]⟩⟩
  | _ => rfl

/-! ## Parses -/

/-- A cursor in front of tokens that follow each other in the script. -/
structure Cursor.Stands (source : List Char) (cursor : Cursor) : Prop where
  reads : cursor.source = source
  upcoming : cursor.upcoming <:+: Token.visible source

namespace Cursor.Stands

theorem mem {cursor : Cursor} (stands : cursor.Stands source) {token : Token}
    (member : token ∈ cursor.upcoming) : token ∈ Token.ofText source :=
  List.mem_of_mem_filter (stands.upcoming.subset member)

theorem shift {cursor : Cursor} (stands : cursor.Stands source) {token : Token}
    {rest : List Token} (next : cursor.upcoming = token :: rest) :
    (cursor.shift token rest).Stands source :=
  ⟨stands.reads, ((next ▸ List.suffix_cons token rest).isInfix).trans stands.upcoming⟩

theorem of_trace {first second : Cursor} (stands : first.Stands source)
    (trace : Cursor.Trace first second) : second.Stands source :=
  ⟨trace.source_eq.trans stands.reads, trace.suffix.isInfix.trans stands.upcoming⟩

end Cursor.Stands

namespace Parse

/-- A parse whose results have a property if the tokens in front of it are those of the script. -/
def Copies (source : List Char) (post : α → Prop) (parse : Parse α) : Prop :=
  ∀ cursor : Cursor, cursor.Stands source →
    (parse cursor).2.Stands source ∧ ∀ value ∈ (parse cursor).1, post value

namespace Copies

variable {α β : Type} {post : α → Prop}

theorem pure {value : α} (holds : post value) : Copies source post (pure value) := by
  refine fun cursor stands => ⟨stands, ?_⟩
  rintro _ ⟨⟩
  exact holds

theorem bind {first : Parse α} {next : α → Parse β} {final : β → Prop}
    (start : Copies source post first)
    (behind : ∀ value, post value → Copies source final (next value)) :
    Copies source final (first >>= next) := by
  intro cursor stands
  obtain ⟨went, made⟩ := start cursor stands
  cases found : (first cursor).1 with
  | none =>
      rw [bind_none found]
      exact ⟨went, by simp⟩
  | some value =>
      rw [bind_some found]
      exact behind value (made value found) _ went

theorem attempt {parse : Parse α} (copies : Copies source post parse) :
    Copies source (fun result => ∀ value ∈ result, post value) parse.attempt := by
  intro cursor stands
  obtain ⟨went, made⟩ := copies cursor stands
  refine ⟨went, ?_⟩
  rintro _ ⟨⟩
  exact made

/-- What is bound to its line leaves tokens of the script behind, whatever it makes of them. -/
theorem of_lineBound {parse : Parse α} (bound : parse.LineBound) :
    Copies source (fun _ => True) parse :=
  fun cursor stands => ⟨stands.of_trace (bound.trace cursor), fun _ _ => trivial⟩

theorem look {next : Cursor → Parse α} (copies : ∀ cursor, Copies source post (next cursor)) :
    Copies source post (look >>= next) :=
  fun cursor stands => copies cursor cursor stands

theorem text (token : Token) : Copies source (· = token.value source) (text token) := by
  refine fun cursor stands => ⟨stands, ?_⟩
  rintro _ ⟨⟩
  rw [stands.reads]

theorem spanFrom (start : Position) :
    Copies source (fun span => span.start = start) (spanFrom start) := by
  obtain ⟨bound, result⟩ := Reads.spanFrom start
  refine fun cursor stands => ⟨stands.of_trace (bound.trace cursor), fun span made => ?_⟩
  obtain ⟨other, found, begins⟩ := result cursor
  exact Option.some.inj (found.symm.trans made) ▸ begins

private theorem takeIf_copies {accepts : Token → Bool} {expected : List Kind} :
    Copies source (fun token => token ∈ Token.ofText source ∧ accepts token = true)
      (fun cursor => cursor.takeIf (cursor.peek?.any accepts) expected) := by
  intro cursor stands
  dsimp only [Cursor.takeIf]
  split
  · next tested =>
    obtain ⟨token, rest, next, accepted⟩ := Cursor.next_of_peek tested
    rw [Cursor.advance_eq next]
    refine ⟨stands.shift next, ?_⟩
    rintro _ ⟨⟩
    exact ⟨stands.mem (by simp [next]), accepted⟩
  · exact ⟨⟨stands.reads, stands.upcoming⟩, by simp⟩

theorem token (kind : Kind) :
    Copies source (fun token => token ∈ Token.ofText source ∧ token.hasKind kind = true)
      (token kind) :=
  takeIf_copies

theorem name :
    Copies source (fun token => token ∈ Token.ofText source ∧ token.isName = true) name :=
  takeIf_copies

theorem anyToken (kinds : List Kind) : Copies source (fun _ => True) (anyToken kinds) := by
  intro cursor stands
  rw [Parse.anyToken, Cursor.requireAny, any_test]
  exact ⟨(takeIf_copies cursor stands).1, fun _ _ => trivial⟩

theorem tokenIf (kind : Kind) :
    Copies source
      (fun found => ∀ token ∈ found, token ∈ Token.ofText source ∧ token.hasKind kind = true)
      (tokenIf kind) := by
  refine attempt fun cursor stands => ?_
  unfold Cursor.optionalToken
  split
  · next tested =>
    have taken := (token kind) cursor stands
    simpa only [Parse.token, Cursor.requireToken, Cursor.takeIf, if_pos tested] using taken
  · exact ⟨stands, by simp⟩

theorem require {rule : Rule α} (copies : Copies source post rule.parse) :
    Copies source post rule.require := by
  intro cursor stands
  unfold Rule.require
  split
  · exact copies cursor stands
  · exact ⟨⟨stands.reads, stands.upcoming⟩, by simp⟩

theorem «optional» {rule : Rule α} (copies : Copies source post rule.parse) :
    Copies source (fun result => ∀ value ∈ result, post value) rule.optional := by
  intro cursor stands
  unfold Rule.optional
  split
  · exact copies.attempt cursor stands
  · exact (pure (by simp)) cursor stands

theorem choice {rules : List (Rule α)}
    (copies : ∀ rule ∈ rules, Copies source post rule.parse) :
    Copies source post (Rule.choice rules).parse := by
  intro cursor stands
  cases found : rules.find? (·.starts cursor) with
  | some rule =>
      rw [Rule.choice_some found]
      exact copies rule (List.mem_of_find?_eq_some found) cursor stands
  | none =>
      rw [Rule.choice_none found]
      exact ⟨⟨stands.reads, stands.upcoming⟩, by simp⟩

/-! ## Lists -/

variable {item : Parse α}

private theorem separated_copies (copies : Copies source post item) (advances : item.Advances)
    {cursor : Cursor} (stands : cursor.Stands source) :
    (separated item advances cursor).2.Stands source ∧
      ∀ value ∈ (separated item advances cursor).1, post value := by
  fun_induction separated item advances cursor with
  | case1 cursor behind found =>
      obtain ⟨went, -⟩ := copies cursor stands
      rw [found] at went
      exact ⟨went, by simp⟩
  | case2 cursor value behind found tested values last equal ih =>
      obtain ⟨went, made⟩ := copies cursor stands
      rw [found] at went made
      obtain ⟨comma, rest, next, -⟩ := Cursor.next_of_peek tested
      rw [Cursor.advance_eq next] at ih equal
      obtain ⟨ended, later⟩ := ih (went.shift next)
      rw [equal] at ended later
      exact ⟨ended, List.forall_mem_cons.2 ⟨made value rfl, later⟩⟩
  | case3 cursor value behind found tested =>
      obtain ⟨went, made⟩ := copies cursor stands
      rw [found] at went made
      exact ⟨(token (.punctuation .closeParen) behind went).1, by simpa using made value rfl⟩

theorem parenthesizedList (copies : Copies source post item) (advances : item.Advances) :
    Copies source (fun values => ∀ value ∈ values, post value)
      (parenthesizedList item advances) := by
  refine .bind (tokenIf _) fun opening _ => ?_
  cases opening with
  | none => exact .pure (by simp)
  | some _ =>
      refine .bind (tokenIf _) fun closing _ => ?_
      cases closing with
      | some _ => exact .pure (by simp)
      | none =>
          intro cursor stands
          obtain ⟨ended, made⟩ := separated_copies copies advances stands
          refine ⟨ended, ?_⟩
          rintro _ ⟨⟩
          exact made

end Copies

end Parse

/-! ## Expressions -/

namespace Grammar

open Parse

theorem literal_copies :
    Copies source (fun expression => AllRead source expression.leaves) literal.parse := by
  refine .look fun cursor => ?_
  split
  · exact fun cursor stands => ⟨stands, by simp [fail]⟩
  · next kind _ =>
    refine .bind (.token _) fun token taken => .bind (.text _) fun text same => .pure ?_
    exact .singleton ⟨token, taken.1, taken.2, by rw [same]⟩

/-- Attributes are taken up to the cursor behind, which has just consumed the last one. -/
theorem attributes_taken (path : String) (cursor : Cursor) (tokens : List Token)
    (equal : cursor.upcoming = tokens) {name : String}
    (found : (attributes path cursor tokens).1 = some name) :
    ∃ segments : List (Token × Token),
      tokens = (segments.flatMap fun segment => [segment.1, segment.2]) ++
        (attributes path cursor tokens).2.upcoming ∧
      (∀ segment ∈ segments,
        segment.1.hasKind (.punctuation .dot) = true ∧ segment.2.isName = true) ∧
      name = Reference.path cursor.source path segments ∧
      (attributes path cursor tokens).2.current =
        (segments.getLast?.map Prod.snd).or cursor.current := by
  fun_induction attributes path cursor tokens generalizing name with
  | case1 path cursor =>
      cases found
      exact ⟨[], by simp [equal], by simp, rfl, by simp⟩
  | case2 | case4 => cases found
  | case3 path cursor dot isDot next rest isName behind =>
      rename_i ih
      obtain ⟨segments, split, dotted, same, current⟩ := ih rfl found
      refine ⟨(dot, next) :: segments, by simp [← split], ?_, same, ?_⟩
      · exact List.forall_mem_cons.2 ⟨⟨isDot, isName⟩, dotted⟩
      · rw [current, List.getLast?_cons]
        cases segments.getLast? <;> rfl
  | case5 path cursor dot rest notDot =>
      cases found
      exact ⟨[], by simp [equal], by simp, rfl, by simp⟩

/-- The part of a name behind its first token. -/
private def path (first : Token) : Parse String := do
  let start ← text first
  fun cursor => attributes start cursor cursor.upcoming

theorem reference_taken {cursor : Cursor} {value : Expression}
    (found : (reference.parse cursor).1 = some value) :
    ∃ first rest, cursor.upcoming = first :: rest ∧ first.hasKind .identifier = true ∧
      ∃ name, (attributes (first.value cursor.source) (cursor.shift first rest) rest).1 =
          some name ∧
        value = .reference ⟨name, (attributes (first.value cursor.source)
          (cursor.shift first rest) rest).2.spanFrom first.start⟩ := by
  simp only [reference, Rule.startingAt] at found
  by_cases tested : cursor.test .identifier = true
  · obtain ⟨first, rest, next, has⟩ := Cursor.next_of_peek tested
    have taken := token_eq next has
    refine ⟨first, rest, next, has, ?_⟩
    rw [bind_some (congrArg Prod.fst taken), taken] at found
    change ((path first >>= fun name => do
      pure (.reference ⟨name, ← spanFrom first.start⟩ : Expression))
        (cursor.shift first rest)).1 = some value at found
    cases named : (path first (cursor.shift first rest)).1 with
    | none =>
        rw [bind_none named] at found
        cases found
    | some name =>
        rw [bind_some named] at found
        exact ⟨name, named, (Option.some.inj found).symm⟩
  · have none_ : (token .identifier cursor).1 = none := by
      simp [token, Cursor.requireToken, Cursor.takeIf, tested]
    rw [bind_none none_] at found
    cases found

theorem reference_copies :
    Copies source (fun expression => AllRead source expression.leaves) reference.parse := by
  intro cursor stands
  refine ⟨stands.of_trace (reference_lineBound.parse.trace cursor), fun value made => ?_⟩
  obtain ⟨first, rest, next, has, name, named, rfl⟩ := reference_taken made
  obtain ⟨segments, split, dotted, name_, current⟩ :=
    attributes_taken _ (cursor.shift first rest) rest rfl named
  refine .singleton ⟨first, segments, ?_, has, dotted, ?_, ?_⟩
  · refine List.IsInfix.trans ?_ stands.upcoming
    rw [next, split]
    exact (List.prefix_append (Reference.tokens first segments) _).isInfix
  · rw [name_, ← stands.reads]
    rfl
  · unfold Cursor.spanFrom
    rw [current]
    cases segments.getLast? <;> rfl

theorem expressionOf_copies {parenthesized : Rule Expression}
    (copies : Copies source (AllRead source ·.leaves) parenthesized.parse) :
    Copies source (AllRead source ·.leaves) (expressionOf parenthesized).parse := by
  refine .choice fun rule member => ?_
  simp only [expressionForms, List.mem_cons, List.not_mem_nil, or_false] at member
  rcases member with rfl | rfl | rfl
  · exact literal_copies
  · exact copies
  · exact reference_copies

theorem parenthesizedBody_copies {inner : Rule Expression}
    (copies : Copies source (AllRead source ·.leaves) inner.parse) :
    Copies source (AllRead source ·.leaves) (parenthesizedBody inner) := by
  refine .bind (.token _) fun _ _ => .bind copies.require fun _ read => ?_
  exact .bind (.token _) fun _ _ => .bind (.spanFrom _) fun _ _ => .pure read

theorem parenthesizedWithin_copies (levels : Nat) :
    Copies source (AllRead source ·.leaves) (parenthesizedWithin levels).parse := by
  induction levels with
  | zero =>
      intro cursor stands
      have stuck : cursor.recordUnexpected.Stands source := ⟨stands.reads, stands.upcoming⟩
      exact ⟨stuck.of_trace (Cursor.skipRestOfLine_trace _), by
        simp [parenthesizedWithin, Rule.startingAt]⟩
  | succ levels ih =>
      intro cursor stands
      have entered : cursor.enterNested.2.Stands source := by
        unfold Cursor.enterNested
        split <;> exact ⟨stands.reads, stands.upcoming⟩
      simp only [parenthesizedWithin, Rule.startingAt]
      rcases equal : cursor.enterNested with ⟨enters, inside⟩
      rw [equal] at entered
      cases enters with
      | false => exact ⟨entered.of_trace (Cursor.skipRestOfLine_trace _), by simp⟩
      | true =>
          obtain ⟨went, made⟩ :=
            parenthesizedBody_copies (expressionOf_copies ih) inside entered
          exact ⟨⟨went.reads, went.upcoming⟩, made⟩

theorem expression_copies : Copies source (AllRead source ·.leaves) expression.parse :=
  expressionOf_copies fun cursor stands => parenthesizedWithin_copies cursor.levels cursor stands

theorem pythonCode_copies : Copies source (Leaf.IsRead source <| .python ·) pythonCode :=
  .bind (.token _) fun token taken => .bind (.text _) fun _ same =>
    .pure ⟨token, taken.1, taken.2, by rw [same]⟩

theorem python_copies : Copies source (AllRead source ·.leaves) python.parse :=
  .bind pythonCode_copies fun _ read => .pure (.singleton read)

theorem assignmentAfter_copies (operators : List Operator) {right : Rule Expression}
    (copies : Copies source (AllRead source ·.leaves) right.parse) {left : Expression}
    (read : AllRead source left.leaves) :
    Copies source (AllRead source ·.leaves) (assignmentAfter operators right left) := by
  refine .bind (.anyToken _) fun token _ => ?_
  split
  · exact .bind copies.require fun _ rights => .pure (.append read rights)
  · exact fun cursor stands => ⟨stands, by simp [fail]⟩

/-! ## Statements -/

theorem identifier_copies {token : Token} (member : token ∈ Token.ofText source)
    (name : token.isName = true) :
    Copies source (Leaf.IsRead source <| .identifier ·) (identifier token) :=
  .bind (.text _) fun _ same => .pure ⟨token, member, name, by rw [same]⟩

theorem nameIdentifier_copies :
    Copies source (Leaf.IsRead source <| .identifier ·) nameIdentifier :=
  .bind .name fun _ taken => identifier_copies taken.1 taken.2

/-- A priority that was read, or else a zero behind the keyword. -/
theorem priority_copies (head : Token) :
    Copies source (fun priority => priority.kind = .integer ∧
      ((Leaf.literal priority).IsRead source ∨ priority = ⟨.integer, "0", .emptyAt head.stop⟩))
      (priority head) := by
  refine .bind (.tokenIf _) fun found taken => ?_
  cases found with
  | none => exact .pure ⟨rfl, .inr rfl⟩
  | some token =>
      obtain ⟨member, has⟩ := taken token rfl
      exact .bind (.text _) fun text same => .pure ⟨rfl, .inl ⟨token, member, has, by rw [same]⟩⟩

theorem definition_copies :
    Copies source
      (fun parts => AllRead source (parts.2.toList.flatMap Assignment.leaves ++
        parts.1.toList.map .python)) definition := by
  have nothing : Copies source
      (fun parts => AllRead source (parts.2.toList.flatMap Assignment.leaves ++
        parts.1.toList.map .python)) (pure (none, none)) :=
    .pure .nil
  refine .bind reference_copies.require.attempt fun left read => ?_
  cases left with
  | none => exact nothing
  | some left =>
      have assigned : Copies source (AllRead source ·.leaves)
          (assignmentAfter defineOperators python left) :=
        assignmentAfter_copies _ python_copies (read left rfl)
      refine .bind (.tokenIf _) fun opening _ => ?_
      cases opening with
      | none => exact .bind assigned.attempt fun _ made => .pure (.append (.option made) .nil)
      | some _ =>
          refine .bind pythonCode_copies.attempt fun index code => ?_
          cases index with
          | none => exact nothing
          | some index =>
              have subscript : AllRead source ((some index).toList.map .python) := .leaf code
              refine .bind (Copies.token _).attempt fun closing _ => ?_
              cases closing with
              | none => exact .pure subscript
              | some _ =>
                  exact .bind assigned.attempt fun _ made =>
                    .pure (.append (.option made) subscript)

/-- A statement without a priority was read if its leaves were. -/
theorem isRead_of_leaves {statement : Statement} (none_ : statement.priority? = none)
    (read : AllRead source statement.leaves) : statement.IsRead source :=
  ⟨read, by simp [none_], by simp [none_]⟩

private theorem isRead_of_priority {statement : Statement} {head : Token} {word : Keyword}
    {priority : Literal} (taken : head ∈ Token.ofText source ∧ head.hasKind (.keyword word) = true)
    (opener : statement.opener = .keyword word) (start : statement.span.start = head.start)
    (some_ : statement.priority? = some priority)
    (number : priority.kind = .integer ∧ ((Leaf.literal priority).IsRead source ∨
      priority = ⟨.integer, "0", .emptyAt head.stop⟩))
    (read : AllRead source statement.leaves) : statement.IsRead source := by
  have only (other : Literal) (same : other ∈ statement.priority?) : priority = other :=
    Option.some.inj (some_.symm.trans same)
  refine ⟨read, fun other same => only other same ▸ number.1, fun other same => ?_⟩
  obtain rfl := only other same
  have kind := ((Token.wellFormed_of_mem_ofText taken.1).hasKind_iff (by simp) (by simp)).1 taken.2
  exact number.2.imp_right fun zero => ⟨head, taken.1, kind.trans opener.symm, start.symm, zero⟩

theorem define_copies : Copies source (Statement.IsRead source) define.parse := by
  refine .bind (.token _) fun head taken => .bind (priority_copies head) fun priority number => ?_
  refine .bind definition_copies fun parts read => .bind (.spanFrom _) fun span start => ?_
  exact .pure (isRead_of_priority taken rfl start rfl number read)

theorem defaultValue_copies : Copies source (Statement.IsRead source) defaultValue.parse := by
  have assigns : Copies source (AllRead source ·.leaves)
      (assignment reference [.assign] python).parse :=
    .bind reference_copies.require fun _ read => assignmentAfter_copies _ python_copies read
  refine .bind (.token _) fun head taken => .bind (priority_copies head) fun priority number => ?_
  refine .bind assigns.require.attempt fun assignment assigned => ?_
  refine .bind (.spanFrom _) fun span start => ?_
  exact .pure (isRead_of_priority taken rfl start rfl number (.option assigned))

theorem jump_copies : Copies source (Statement.IsRead source) jump.parse := by
  refine .bind (.token _) fun head _ => .bind (.tokenIf _) fun computed _ => ?_
  cases computed with
  | some _ =>
      refine .bind pythonCode_copies.attempt fun code read => .bind (.spanFrom _) fun _ _ => ?_
      exact .pure (isRead_of_leaves rfl (.append .nil (.leaf read)))
  | none =>
      refine .bind nameIdentifier_copies.attempt fun target read => ?_
      refine .bind (.spanFrom _) fun _ _ => ?_
      exact .pure (isRead_of_leaves rfl (.append (.leaf read) .nil))

theorem callTail_copies :
    Copies source
      (fun tail => (∀ argument ∈ tail.1, AllRead source argument.leaves) ∧
        ∀ site ∈ tail.2, (Leaf.identifier site).IsRead source)
      callTail := by
  refine .bind (expression_copies.require.parenthesizedList _) fun arguments read => ?_
  refine .bind (.tokenIf _) fun site _ => ?_
  cases site with
  | some _ => exact .bind nameIdentifier_copies.attempt fun _ named => .pure ⟨read, named⟩
  | none => exact .pure ⟨read, by simp⟩

private theorem call_isRead {parts : Call}
    (target : ∀ name ∈ parts.target, (Leaf.identifier name).IsRead source)
    (arguments : ∀ argument ∈ parts.arguments, AllRead source argument.leaves)
    (code : ∀ code ∈ parts.expression, (Leaf.python code).IsRead source)
    (screen : ∀ name ∈ parts.screen, (Leaf.identifier name).IsRead source)
    (site : ∀ name ∈ parts.returnSite, (Leaf.identifier name).IsRead source) :
    (Statement.call parts).IsRead source :=
  isRead_of_leaves rfl (.append (.append (.append (.append (.leaf target) (.flatMap arguments))
    (.leaf code)) (.leaf screen)) (.leaf site))

theorem call_copies : Copies source (Statement.IsRead source) call.parse := by
  have finish {start : Position} {statement : Span → Statement}
      (read : ∀ span, (statement span).IsRead source) :
      Copies source (Statement.IsRead source) (do pure (statement (← spanFrom start))) :=
    .bind (.spanFrom _) fun span _ => .pure (read span)
  refine .bind (.token _) fun head _ => .bind (.tokenIf _) fun computed _ => ?_
  cases computed with
  | some _ =>
      refine .bind pythonCode_copies.attempt fun code read => finish fun span => ?_
      exact call_isRead (by simp) (by simp) read (by simp) (by simp)
  | none =>
      refine .bind (.tokenIf _) fun screen _ => ?_
      cases screen with
      | some _ =>
          refine .bind nameIdentifier_copies.attempt fun screen named => ?_
          refine .bind (.of_lineBound skipRestOfLine_lineBound) fun _ _ => finish fun span => ?_
          exact call_isRead (by simp) (by simp) (by simp) named (by simp)
      | none =>
          refine .bind nameIdentifier_copies.attempt fun target named => ?_
          cases target with
          | none =>
              exact finish fun span =>
                call_isRead (by simp) (by simp) (by simp) (by simp) (by simp)
          | some target =>
              refine .bind callTail_copies fun tail read => finish fun span => ?_
              exact call_isRead named read.1 (by simp) (by simp) read.2

theorem return_copies : Copies source (Statement.IsRead source) «return».parse :=
  .bind (.token _) fun _ _ => .bind expression_copies.optional fun _ read =>
    .bind (.spanFrom _) fun _ _ => .pure (isRead_of_leaves rfl (.option read))

theorem pause_copies : Copies source (Statement.IsRead source) pause.parse :=
  .bind (.token _) fun _ _ => .bind expression_copies.optional fun _ read =>
    .bind (.spanFrom _) fun _ _ => .pure (isRead_of_leaves rfl (.option read))

theorem pass_copies : Copies source (Statement.IsRead source) pass.parse :=
  .bind (.token _) fun _ _ => .pure (isRead_of_leaves rfl .nil)

theorem pythonLine_copies : Copies source (Statement.IsRead source) pythonLine.parse :=
  .bind (.token _) fun _ _ => .bind pythonCode_copies.attempt fun _ read =>
    .bind (.spanFrom _) fun _ _ => .pure (isRead_of_leaves rfl (.leaf read))

theorem parameter_copies : Copies source (AllRead source ·.leaves) parameter := by
  refine .bind (.token _) fun token taken => ?_
  refine .bind (identifier_copies taken.1 (by simp [Token.isName, taken.2])) fun name named => ?_
  refine .bind (.tokenIf _) fun assigned _ => ?_
  cases assigned with
  | some _ =>
      exact .bind expression_copies.require.attempt fun _ read =>
        .pure (.cons named (.option read))
  | none => exact .pure (.cons named .nil)

theorem labelLine_copies : Copies source (Statement.IsRead source) labelLine.parse := by
  have head : Copies source (AllRead source ·.leaves) labelHead := by
    refine .bind nameIdentifier_copies.attempt fun name named => ?_
    refine .bind (parameter_copies.parenthesizedList _) fun parameters read => ?_
    refine .bind (Copies.token _).attempt fun _ _ => ?_
    exact .pure (.append (.leaf named) (.flatMap read))
  exact .bind (.token _) fun _ _ => .bind head fun _ read =>
    .bind (.spanFrom _) fun _ _ => .pure (isRead_of_leaves rfl read)

theorem lineStatement_copies : Copies source (Statement.IsRead source) lineStatement.parse := by
  refine .choice fun rule member => ?_
  simp only [lineForms, List.cons_append, List.nil_append, List.mem_cons, List.not_mem_nil,
    or_false] at member
  rcases member with rfl | rfl | rfl | rfl | rfl | rfl | rfl | rfl | rfl
  · exact define_copies
  · exact defaultValue_copies
  · exact labelLine_copies
  · exact jump_copies
  · exact call_copies
  · exact return_copies
  · exact pass_copies
  · exact pause_copies
  · exact pythonLine_copies

end Grammar

/-! ## Documents -/

theorem Line.tokens_isInfix {tokens : List Token} {line : Line} (member : line ∈ ofTokens tokens) :
    line.tokens <:+: tokens := by
  fun_induction ofTokens tokens with
  | case1 => simp at member
  | case2 first rest newline ih => exact (ih member).trans (List.suffix_cons first rest).isInfix
  | case3 first rest other ih =>
      rcases List.mem_cons.1 member with rfl | later
      · exact (List.cons_prefix_cons.2 ⟨rfl, List.takeWhile_prefix _⟩).isInfix
      · exact (ih later).trans
          (((List.dropWhile_suffix _).trans (List.suffix_cons first rest)).isInfix)

/-- Whatever a document was read from, its statements were made of the tokens of their lines. -/
theorem Document.ofText_isRead {node : List Statement × Statement}
    (member : node ∈ (ofText source).1.lineage) : node.2.IsRead source := by
  obtain ⟨site, among, visited⟩ := visited_of_node member
  obtain ⟨cursor, tail, at_, reads, -, own, -⟩ := visited.read
  obtain ⟨line, head⟩ := Site.line_of_mem among
  obtain ⟨statement, found, same⟩ := Option.map_eq_some_iff.1 own
  rw [Grammar.ownLine_alone at_ head, reads.trans (ofText_block source).leads.source] at found
  rw [← Statement.own_isRead, ← same, Statement.own_isRead]
  exact (Grammar.lineStatement_copies _ ⟨rfl, Line.tokens_isInfix line⟩).2 statement found

end NovelScript
