import Mathlib.Data.List.Forall2
import NovelScript.Proofs.Locality

/-!
# What a line opens with

Every statement is opened by a token of its own, and its own line is read by a parse that is bound
to that line and always comes back with a statement, which starts where the line does.  Only then
does a label read its body, from the next line on.
-/

namespace NovelScript

/-! ## Parses that come back -/

/-- A parse bound to its line that always has a result, with a property. -/
structure Parse.Reads {α : Type} (post : α → Prop) (parse : Parse α) : Prop where
  bound : parse.LineBound
  result : ∀ cursor, ∃ value, (parse cursor).1 = some value ∧ post value

theorem Parse.token_eq {cursor : Cursor} {kind : Kind} {token : Token} {rest : List Token}
    (next : cursor.upcoming = token :: rest) (has : token.hasKind kind = true) :
    Parse.token kind cursor = (some token, cursor.shift token rest) := by
  have tested : cursor.test kind = true := by
    simp [Cursor.test, Cursor.peek?, next, has]
  simp only [Parse.token, Cursor.requireToken, Cursor.takeIf, if_pos tested]
  exact Cursor.advance_eq next

namespace Parse.Reads

variable {α β : Type}

theorem pure {post : α → Prop} {value : α} (holds : post value) :
    Reads post (pure value) :=
  ⟨.pure value, fun _ => ⟨value, rfl, holds⟩⟩

theorem bind {first : Parse α} {next : α → Parse β} {middle : α → Prop} {post : β → Prop}
    (start : Reads middle first)
    (behind : ∀ value, Reads (fun result => middle value → post result) (next value)) :
    Reads post (first >>= next) := by
  refine ⟨.bind start.bound fun value => (behind value).bound, ?_⟩
  intro cursor
  obtain ⟨value, found, holds⟩ := start.result cursor
  obtain ⟨last, ended, implied⟩ := (behind value).result (first cursor).2
  refine ⟨last, ?_, implied holds⟩
  rw [Parse.bind_some found]
  exact ended

theorem andThen {first : Parse α} {next : α → Parse β} {middle : α → Prop} {post : β → Prop}
    (start : Reads middle first) (behind : ∀ value, Reads post (next value)) :
    Reads post (first >>= next) := by
  refine ⟨.bind start.bound fun value => (behind value).bound, ?_⟩
  intro cursor
  obtain ⟨value, found, -⟩ := start.result cursor
  obtain ⟨last, ended, holds⟩ := (behind value).result (first cursor).2
  refine ⟨last, ?_, holds⟩
  rw [Parse.bind_some found]
  exact ended

theorem attempt {parse : Parse α} (bound : parse.LineBound) :
    Reads (fun _ => True) parse.attempt :=
  ⟨bound.attempt, fun cursor => ⟨(parse cursor).1, rfl, trivial⟩⟩

theorem tokenIf {kind : Kind} (other : kind ≠ .newline) :
    Reads (fun _ => True) (Parse.tokenIf kind) :=
  ⟨tokenIf_lineBound other, fun _ => ⟨_, rfl, trivial⟩⟩

theorem text (token : Token) : Reads (fun _ => True) (Parse.text token) :=
  ⟨text_lineBound token, fun _ => ⟨_, rfl, trivial⟩⟩

theorem spanFrom (start : Position) :
    Reads (fun span => span.start = start) (Parse.spanFrom start) := by
  refine ⟨spanFrom_lineBound start, fun cursor => ⟨_, rfl, ?_⟩⟩
  unfold Cursor.spanFrom
  split <;> rfl

theorem skipRestOfLine : Reads (fun _ => True) (move Cursor.skipRestOfLine) :=
  ⟨skipRestOfLine_lineBound, fun _ => ⟨_, rfl, trivial⟩⟩

theorem optional {rule : Rule α} (bound : rule.LineBound) :
    Reads (fun _ => True) rule.optional := by
  refine ⟨Rule.optional_lineBound bound, ?_⟩
  intro cursor
  unfold Rule.optional
  split
  · exact ⟨_, rfl, trivial⟩
  · exact ⟨_, rfl, trivial⟩

theorem parenthesizedList {item : Parse α} (bound : item.LineBound) (advances : item.Advances) :
    Reads (fun _ => True) (Parse.parenthesizedList item advances) := by
  refine (tokenIf (by simp)).andThen fun opening => ?_
  cases opening with
  | none => exact .pure trivial
  | some _ =>
      refine (tokenIf (by simp)).andThen fun closing => ?_
      cases closing with
      | some _ => exact .pure trivial
      | none =>
          exact ⟨separated_lineBound bound advances, fun _ => ⟨_, rfl, trivial⟩⟩

end Parse.Reads

/-! ## Openers -/

namespace Statement

def opener : Statement → Kind
  | .define _ => .keyword .define
  | .defaultValue _ => .keyword .default
  | .label .. => .keyword .label
  | .jump _ => .keyword .jump
  | .call _ => .keyword .call
  | .return .. => .keyword .«return»
  | .pass _ => .keyword .pass
  | .pause .. => .keyword .pause
  | .python .. => .punctuation .dollar

/-- What a statement has of its own line: everything but the body of a label and its end. -/
def own : Statement → Statement
  | .label head _ span => .label head [] (.emptyAt span.start)
  | statement => statement

end Statement

namespace Grammar

open Parse

/-- A statement opened by `head`, which it starts at. -/
def OpenedBy (kind : Kind) (head : Token) (statement : Statement) : Prop :=
  statement.opener = kind ∧ statement.span.start = head.start

/-- A rule that takes the token that opens a statement and then reads the rest of its line. -/
structure Opens (kind : Kind) (rule : Rule Statement) : Prop where
  inLine : kind ≠ .newline
  reads : ∃ next : Token → Parse Statement, rule = .startingAt kind (token kind >>= next) ∧
    ∀ head, Reads (OpenedBy kind head) (next head)

theorem nameIdentifier_lineBound : nameIdentifier.LineBound :=
  .bind name_lineBound fun token => .bind (text_lineBound token) fun _ => .pure _

private theorem priority_reads (head : Token) : Reads (fun _ => True) (priority head) := by
  refine (Reads.tokenIf (by simp)).andThen fun token => ?_
  cases token with
  | some token => exact (Reads.text token).andThen fun _ => .pure trivial
  | none => exact .pure trivial

private theorem definition_reads : Reads (fun _ => True) definition := by
  refine (Reads.attempt (Rule.require_lineBound reference_lineBound)).andThen fun left => ?_
  cases left with
  | none => exact .pure trivial
  | some left =>
      have assigned := Reads.attempt
        (assignmentAfter_lineBound defineOperators python_lineBound left)
      refine (Reads.tokenIf (by simp)).andThen fun opening => ?_
      cases opening with
      | none => exact assigned.andThen fun _ => .pure trivial
      | some _ =>
          refine (Reads.attempt pythonCode_lineBound).andThen fun index => ?_
          cases index with
          | none => exact .pure trivial
          | some _ =>
              refine (Reads.attempt (token_lineBound (by simp))).andThen fun closing => ?_
              cases closing with
              | none => exact .pure trivial
              | some _ => exact assigned.andThen fun _ => .pure trivial

private theorem finish {kind : Kind} {head : Token} {make : Span → Statement}
    (opener : ∀ span, (make span).opener = kind) (span : ∀ span, (make span).span = span) :
    Reads (OpenedBy kind head) (do pure (make (← Parse.spanFrom head.start))) := by
  refine (Reads.spanFrom head.start).bind fun extent => ?_
  refine .pure fun start => ⟨opener extent, ?_⟩
  rw [span, start]

theorem define_opens : Opens (.keyword .define) define := by
  refine ⟨by simp, _, rfl, fun head => ?_⟩
  refine (priority_reads head).andThen fun priority => ?_
  refine definition_reads.andThen fun parts => ?_
  exact finish (fun _ => rfl) fun _ => rfl

theorem defaultValue_opens : Opens (.keyword .default) defaultValue := by
  refine ⟨by simp, _, rfl, fun head => ?_⟩
  refine (priority_reads head).andThen fun priority => ?_
  have assigned := assignment_lineBound [.assign] reference_lineBound python_lineBound
  refine (Reads.attempt (Rule.require_lineBound assigned)).andThen fun assignment => ?_
  exact finish (fun _ => rfl) fun _ => rfl

theorem jump_opens : Opens (.keyword .jump) jump := by
  refine ⟨by simp, _, rfl, fun head => ?_⟩
  refine (Reads.tokenIf (by simp)).andThen fun computed => ?_
  cases computed with
  | some _ =>
      refine (Reads.attempt pythonCode_lineBound).andThen fun code => ?_
      exact finish (fun _ => rfl) fun _ => rfl
  | none =>
      refine (Reads.attempt nameIdentifier_lineBound).andThen fun target => ?_
      exact finish (fun _ => rfl) fun _ => rfl

private theorem callTail_reads : Reads (fun _ => True) callTail := by
  refine (Reads.parenthesizedList (Rule.require_lineBound expression_lineBound) _).andThen
    fun arguments => ?_
  refine (Reads.tokenIf (by simp)).andThen fun site => ?_
  cases site with
  | some _ =>
      exact (Reads.attempt nameIdentifier_lineBound).andThen fun _ => .pure trivial
  | none => exact .pure trivial

theorem call_opens : Opens (.keyword .call) call := by
  refine ⟨by simp, _, rfl, fun head => ?_⟩
  refine (Reads.tokenIf (by simp)).andThen fun computed => ?_
  cases computed with
  | some _ =>
      refine (Reads.attempt pythonCode_lineBound).andThen fun code => ?_
      exact finish (fun _ => rfl) fun _ => rfl
  | none =>
      refine (Reads.tokenIf (by simp)).andThen fun screen => ?_
      cases screen with
      | some _ =>
          refine (Reads.attempt nameIdentifier_lineBound).andThen fun screen => ?_
          refine Reads.skipRestOfLine.andThen fun _ => ?_
          exact finish (fun _ => rfl) fun _ => rfl
      | none =>
          refine (Reads.attempt nameIdentifier_lineBound).andThen fun target => ?_
          cases target with
          | none => exact finish (fun _ => rfl) fun _ => rfl
          | some target =>
              refine callTail_reads.andThen fun parts => ?_
              exact finish (fun _ => rfl) fun _ => rfl

theorem return_opens : Opens (.keyword .«return») «return» := by
  refine ⟨by simp, _, rfl, fun head => ?_⟩
  refine (Reads.optional expression_lineBound).andThen fun value => ?_
  exact finish (fun _ => rfl) fun _ => rfl

theorem pass_opens : Opens (.keyword .pass) pass :=
  ⟨by simp, _, rfl, fun _ => .pure ⟨rfl, rfl⟩⟩

theorem pause_opens : Opens (.keyword .pause) pause := by
  refine ⟨by simp, _, rfl, fun head => ?_⟩
  refine (Reads.optional expression_lineBound).andThen fun duration => ?_
  exact finish (fun _ => rfl) fun _ => rfl

theorem pythonLine_opens : Opens (.punctuation .dollar) pythonLine := by
  refine ⟨by simp, _, rfl, fun head => ?_⟩
  refine (Reads.attempt pythonCode_lineBound).andThen fun code => ?_
  exact finish (fun _ => rfl) fun _ => rfl

theorem parameter_lineBound : parameter.LineBound := by
  refine .bind (token_lineBound (by simp)) fun token => ?_
  refine .bind (.bind (text_lineBound token) fun _ => .pure _) fun name => ?_
  refine .bind (tokenIf_lineBound (by simp)) fun assigned => ?_
  cases assigned with
  | some _ =>
      exact .bind (Rule.require_lineBound expression_lineBound).attempt fun _ => .pure _
  | none => exact .pure _

theorem labelHead_reads : Reads (fun _ => True) labelHead := by
  refine (Reads.attempt nameIdentifier_lineBound).andThen fun name => ?_
  refine (Reads.parenthesizedList parameter_lineBound _).andThen fun parameters => ?_
  exact (Reads.attempt (token_lineBound (by simp))).andThen fun _ => .pure trivial

/-- A label as far as its own line goes. -/
def labelLine : Rule Statement :=
  .startingAt (.keyword .label) do
    let start ← token (.keyword .label)
    let head ← labelHead
    pure (.label head [] (← spanFrom start.start))

theorem labelLine_opens : Opens (.keyword .label) labelLine := by
  refine ⟨by simp, _, rfl, fun start => ?_⟩
  exact labelHead_reads.andThen fun head => finish (fun _ => rfl) fun _ => rfl

/-! ## The line of a statement -/

def lineForms : List (Rule Statement) :=
  [define, defaultValue] ++ labelLine :: [jump, call, «return», pass, pause, pythonLine]

def lineStatement : Rule Statement := .choice lineForms

def openers : List Kind :=
  [.keyword .define, .keyword .default, .keyword .label, .keyword .jump, .keyword .call,
    .keyword .«return», .keyword .pass, .keyword .pause, .punctuation .dollar]

theorem forms_open : List.Forall₂ Opens openers lineForms := by
  refine .cons define_opens (.cons defaultValue_opens (.cons labelLine_opens ?_))
  refine .cons jump_opens (.cons call_opens (.cons return_opens ?_))
  exact .cons pass_opens (.cons pause_opens (.cons pythonLine_opens .nil))

namespace Opens

variable {kind : Kind} {rule : Rule Statement}

theorem starts_eq (opens : Opens kind rule) (cursor : Cursor) :
    rule.starts cursor = cursor.test kind := by
  obtain ⟨next, rfl, -⟩ := opens.reads
  rfl

theorem lineBound (opens : Opens kind rule) : rule.LineBound := by
  obtain ⟨next, rfl, reads⟩ := opens.reads
  exact Rule.startingAt_lineBound opens.inLine
    (.bind (token_lineBound opens.inLine) fun head => (reads head).bound)

/-- Where an opener is next, the rule comes back with a statement opened by it; what was consumed
before does not matter. -/
theorem parse (opens : Opens kind rule) {cursor : Cursor} {head : Token} {rest : List Token}
    (next : cursor.upcoming = head :: rest) (has : head.hasKind kind = true) :
    ∃ statement, (rule.parse cursor).1 = some statement ∧ OpenedBy kind head statement ∧
      ∀ current, (rule.parse { cursor with current }).1 = some statement := by
  obtain ⟨body, rfl, reads⟩ := opens.reads
  have taken (current : Option Token) : token kind { cursor with current } =
      (some head, cursor.shift head rest) := token_eq next has
  have parsed (current : Option Token) :
      (token kind >>= body) { cursor with current } = body head (cursor.shift head rest) := by
    rw [bind_some (by rw [taken]), taken]
  obtain ⟨statement, found, opened⟩ := (reads head).result (cursor.shift head rest)
  refine ⟨statement, ?_, opened, fun current => ?_⟩
  · exact (congrArg Prod.fst (parsed cursor.current)).trans found
  · exact (congrArg Prod.fst (parsed current)).trans found

end Opens

end Grammar

end NovelScript
