import NovelScript.Grammar.Expression
import NovelScript.Syntax.Statement

/-!
# Statement rules

Every statement starts with a token of its own, a keyword or a dollar sign.  A statement whose head
was recognized is kept even if it could not be read to its end; the missing parts stay absent.
-/

namespace NovelScript.Grammar

open Parse

def identifier (token : Token) : Parse Identifier := do pure ⟨← text token, token.span⟩

def nameIdentifier : Parse Identifier := do identifier (← name)

/-! ## Bindings -/

/-- The init priority behind a keyword, or a zero of no extent. -/
def priority (head : Token) : Parse Literal := do
  match ← tokenIf (.literal .integer) with
  | some token => pure ⟨.integer, ← text token, token.span⟩
  | none => pure ⟨.integer, "0", .emptyAt head.stop⟩

def defineOperators : List Operator := [.assign, .plusAssign, .orAssign]

def definition : Parse (Option PythonCode × Option Assignment) := do
  match ← attempt reference.require with
  | none => pure (none, none)
  | some left =>
      match ← tokenIf (.punctuation .openBracket) with
      | none => pure (none, ← attempt (assignmentAfter defineOperators python left))
      | some _ =>
          match ← attempt pythonCode with
          | none => pure (none, none)
          | some index =>
              match ← attempt (token (.punctuation .closeBracket)) with
              | none => pure (some index, none)
              | some _ =>
                  pure (some index, ← attempt (assignmentAfter defineOperators python left))

def define : Rule Statement :=
  .startingAt (.keyword .define) do
    let head ← token (.keyword .define)
    let priority ← priority head
    let (index, assignment) ← definition
    pure (.define ⟨priority, assignment, index, ← spanFrom head.start⟩)

def defaultValue : Rule Statement :=
  .startingAt (.keyword .default) do
    let head ← token (.keyword .default)
    let priority ← priority head
    let assignment ← attempt (assignment reference [.assign] python).require
    pure (.defaultValue ⟨priority, assignment, ← spanFrom head.start⟩)

/-! ## Transfers of control -/

def jump : Rule Statement :=
  .startingAt (.keyword .jump) do
    let head ← token (.keyword .jump)
    match ← tokenIf (.keyword .expression) with
    | some _ =>
        let code ← attempt pythonCode
        pure (.jump ⟨none, code, ← spanFrom head.start⟩)
    | none =>
        let target ← attempt nameIdentifier
        pure (.jump ⟨target, none, ← spanFrom head.start⟩)

def callTail : Parse (List Expression × Option Identifier) := do
  let arguments ← parenthesizedList expression.require (Rule.require_advances expression_advances)
  match ← tokenIf (.keyword .«from») with
  | some _ => pure (arguments, ← attempt nameIdentifier)
  | none => pure (arguments, none)

def call : Rule Statement :=
  .startingAt (.keyword .call) do
    let head ← token (.keyword .call)
    match ← tokenIf (.keyword .expression) with
    | some _ =>
        let code ← attempt pythonCode
        pure (.call ⟨none, [], code, none, none, ← spanFrom head.start⟩)
    | none =>
        match ← tokenIf (.keyword .screen) with
        | some _ =>
            let screen ← attempt nameIdentifier
            move Cursor.skipRestOfLine
            pure (.call ⟨none, [], none, screen, none, ← spanFrom head.start⟩)
        | none =>
            match ← attempt nameIdentifier with
            | none => pure (.call ⟨none, [], none, none, none, ← spanFrom head.start⟩)
            | some target =>
                let (arguments, site) ← callTail
                pure (.call ⟨some target, arguments, none, none, site, ← spanFrom head.start⟩)

def «return» : Rule Statement :=
  .startingAt (.keyword .«return») do
    let head ← token (.keyword .«return»)
    let value ← expression.optional
    pure (.return value (← spanFrom head.start))

/-! ## Small statements -/

def pass : Rule Statement :=
  .startingAt (.keyword .pass) do
    let head ← token (.keyword .pass)
    pure (.pass head.span)

def pause : Rule Statement :=
  .startingAt (.keyword .pause) do
    let head ← token (.keyword .pause)
    let duration ← expression.optional
    pure (.pause duration (← spanFrom head.start))

def pythonLine : Rule Statement :=
  .startingAt (.punctuation .dollar) do
    let head ← token (.punctuation .dollar)
    let code ← attempt pythonCode
    pure (.python code (← spanFrom head.start))

/-! ## Nothing is put back -/

theorem identifier_advances (token : Token) : (identifier token).Advances :=
  Advances.bind (text_advances _) fun _ => Advances.pure _

theorem nameIdentifier_advances : nameIdentifier.Advances :=
  Advances.bind name_advances identifier_advances

theorem priority_advances (head : Token) : (priority head).Advances := by
  refine Advances.bind (tokenIf_advances _) fun token => ?_
  cases token with
  | some _ => exact Advances.bind (text_advances _) fun _ => Advances.pure _
  | none => exact Advances.pure _

theorem definition_advances : definition.Advances := by
  refine Advances.bind (Rule.require_advances reference_advances).attempt fun left => ?_
  cases left with
  | none => exact Advances.pure _
  | some left =>
      have assigned :=
        (assignmentAfter_advances defineOperators python_advances left).attempt
      refine Advances.bind (tokenIf_advances _) fun opening => ?_
      cases opening with
      | none => exact Advances.bind assigned fun _ => Advances.pure _
      | some _ =>
          refine Advances.bind pythonCode_advances.attempt fun index => ?_
          cases index with
          | none => exact Advances.pure _
          | some _ =>
              refine Advances.bind (token_advances _).attempt fun closing => ?_
              cases closing with
              | none => exact Advances.pure _
              | some _ => exact Advances.bind assigned fun _ => Advances.pure _

theorem define_advances : define.parse.Advances := by
  refine Advances.bind (token_advances _) fun head => ?_
  refine Advances.bind (priority_advances _) fun priority => ?_
  refine Advances.bind definition_advances fun parts => ?_
  exact Advances.bind (spanFrom_advances _) fun _ => Advances.pure _

theorem defaultValue_advances : defaultValue.parse.Advances := by
  refine Advances.bind (token_advances _) fun head => ?_
  refine Advances.bind (priority_advances _) fun priority => ?_
  have assigned := assignment_advances [.assign] reference_advances python_advances
  refine Advances.bind (Rule.require_advances assigned).attempt fun assignment => ?_
  exact Advances.bind (spanFrom_advances _) fun _ => Advances.pure _

theorem jump_advances : jump.parse.Advances := by
  refine Advances.bind (token_advances _) fun head => ?_
  refine Advances.bind (tokenIf_advances _) fun computed => ?_
  cases computed with
  | some _ =>
      refine Advances.bind pythonCode_advances.attempt fun code => ?_
      exact Advances.bind (spanFrom_advances _) fun _ => Advances.pure _
  | none =>
      refine Advances.bind nameIdentifier_advances.attempt fun target => ?_
      exact Advances.bind (spanFrom_advances _) fun _ => Advances.pure _

theorem callTail_advances : callTail.Advances := by
  refine Advances.bind (parenthesizedList_advances _ _) fun arguments => ?_
  refine Advances.bind (tokenIf_advances _) fun site => ?_
  cases site with
  | some _ => exact Advances.bind nameIdentifier_advances.attempt fun _ => Advances.pure _
  | none => exact Advances.pure _

theorem call_advances : call.parse.Advances := by
  refine Advances.bind (token_advances _) fun head => ?_
  have finish {statement : Span → Statement} :
      (do pure (statement (← spanFrom head.start)) : Parse Statement).Advances :=
    Advances.bind (spanFrom_advances _) fun _ => Advances.pure _
  refine Advances.bind (tokenIf_advances _) fun computed => ?_
  cases computed with
  | some _ => exact Advances.bind pythonCode_advances.attempt fun _ => finish
  | none =>
      refine Advances.bind (tokenIf_advances _) fun screen => ?_
      cases screen with
      | some _ =>
          refine Advances.bind nameIdentifier_advances.attempt fun _ => ?_
          exact Advances.bind (move_advances Cursor.skipRestOfLine_suffix) fun _ => finish
      | none =>
          refine Advances.bind nameIdentifier_advances.attempt fun target => ?_
          cases target with
          | none => exact finish
          | some _ => exact Advances.bind callTail_advances fun _ => finish

theorem return_advances : «return».parse.Advances := by
  refine Advances.bind (token_advances _) fun head => ?_
  refine Advances.bind (Rule.optional_advances expression_advances) fun value => ?_
  exact Advances.bind (spanFrom_advances _) fun _ => Advances.pure _

theorem pass_advances : pass.parse.Advances :=
  Advances.bind (token_advances _) fun _ => Advances.pure _

theorem pause_advances : pause.parse.Advances := by
  refine Advances.bind (token_advances _) fun head => ?_
  refine Advances.bind (Rule.optional_advances expression_advances) fun duration => ?_
  exact Advances.bind (spanFrom_advances _) fun _ => Advances.pure _

theorem pythonLine_advances : pythonLine.parse.Advances := by
  refine Advances.bind (token_advances _) fun head => ?_
  refine Advances.bind pythonCode_advances.attempt fun code => ?_
  exact Advances.bind (spanFrom_advances _) fun _ => Advances.pure _

end NovelScript.Grammar
