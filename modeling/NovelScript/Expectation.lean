import NovelScript.Syntax.Document

/-!
# Expectations

What a script's document is expected to look like, as data.  Checking stops at the first
expectation that fails, and the failure says where in the tree it was.
-/

namespace NovelScript

namespace Expectation

/-! ## Failures -/

inductive Failure where
  | differs (context : String) (found : String) (expected : String)
  | missing (message : String)
  deriving DecidableEq, Repr

def Failure.message : Failure → String
  | .differs context found expected =>
      "assertion \x60left == right\x60 failed: " ++ context ++ "\n  left: " ++ found ++
        "\n right: " ++ expected
  | .missing message => message

abbrev Check := Except Failure Unit

def same (context : String) (found expected : String) : Check :=
  if found = expected then .ok () else .error (.differs context found expected)

def holds (condition : Bool) (message : String) : Check :=
  if condition then .ok () else .error (.missing message)

/-! ## Quoted forms -/

def showOption : Option String → String
  | some text => s!"Some({Text.quote text})"
  | none => "None"

def showBool (value : Bool) : String := if value then "true" else "false"

def showPlace (line column : Nat) : String := s!"({line}, {column})"

def showList (texts : List String) : String :=
  "[" ++ ", ".intercalate (texts.map Text.quote) ++ "]"

/-! ## Bindings -/

inductive Binding where
  | priority (text : String)
  | target (name : String)
  | operator (operator : Operator)
  | value (text : String)
  | incomplete
  deriving DecidableEq, Repr

def Binding.check (context : String) (priority : Literal) (assignment : Option Assignment)
    (binding : Binding) : Check :=
  match binding, assignment with
  | .priority text, _ =>
      same s!"{context}: priority" (Text.quote priority.text) (Text.quote text)
  | .incomplete, assignment =>
      holds assignment.isNone s!"{context}: expected the assignment to be missing"
  | _, none => .error (.missing s!"{context}: assignment is missing")
  | .target name, some assignment =>
      same s!"{context}: target" (showOption (assignment.target?.map Reference.name))
        (showOption (some name))
  | .operator symbol, some assignment =>
      same s!"{context}: operator" assignment.operator.name symbol.name
  | .value text, some assignment =>
      match assignment.right with
      | .python code => same s!"{context}: value" (Text.quote code.source) (Text.quote text)
      | other =>
          .error (.missing s!"{context}: expected a python value, found {other.nodeType}")

/-! ## Targets -/

inductive Target where
  | target (name : String)
  | missingTarget
  | argumentCount (count : Nat)
  deriving DecidableEq, Repr

def Target.check (context : String) (found : Option String) (arguments : Nat) : Target → Check
  | .target name => same s!"{context}: target" (showOption found) (showOption (some name))
  | .missingTarget => holds found.isNone s!"{context}: expected no target"
  | .argumentCount count => same s!"{context}: arguments" (toString arguments) (toString count)

/-! ## Statements -/

mutual

inductive OfStatement where
  | startsAt (line column : Nat)
  | «return» (hasValue : Bool)
  | pass
  | pause (hasDuration : Bool)
  | define (parts : List Binding)
  | defaultValue (parts : List Binding)
  | label (parts : List OfLabel)
  | jump (parts : List Target)
  | call (parts : List Target)
  | python (codes : List String)

inductive OfLabel where
  | name (name : String)
  | parameters (names : List String)
  | bodyCount (count : Nat)
  | body (index : Nat) (parts : List OfStatement)

end

def otherStatement (context sort : String) (statement : Statement) : Check :=
  .error (.missing s!"{context}: expected {sort}, found {statement.nodeType}")

mutual

def OfStatement.check (context : String) (statement : Statement) : OfStatement → Check
  | .startsAt line column =>
      let start := statement.span.start
      same s!"{context}: wrong start position" (showPlace start.line start.column)
        (showPlace line column)
  | .return hasValue =>
      match statement with
      | .return value _ =>
          same s!"{context}: return value presence" (showBool value.isSome) (showBool hasValue)
      | other => otherStatement context "Return" other
  | .pass =>
      match statement with
      | .pass _ => .ok ()
      | other => otherStatement context "Pass" other
  | .pause hasDuration =>
      match statement with
      | .pause duration _ =>
          same s!"{context}: pause duration presence" (showBool duration.isSome)
            (showBool hasDuration)
      | other => otherStatement context "Pause" other
  | .define parts =>
      match statement with
      | .define binding => parts.forM (Binding.check context binding.priority binding.assignment)
      | other => otherStatement context "Define" other
  | .defaultValue parts =>
      match statement with
      | .defaultValue binding =>
          parts.forM (Binding.check context binding.priority binding.assignment)
      | other => otherStatement context "Default" other
  | .label parts =>
      match statement with
      | .label head body _ => checkLabel context head body parts
      | other => otherStatement context "Label" other
  | .jump parts =>
      match statement with
      | .jump transfer => parts.forM (Target.check context (transfer.target.map Identifier.name) 0)
      | other => otherStatement context "Jump" other
  | .call parts =>
      match statement with
      | .call transfer =>
          parts.forM
            (Target.check context (transfer.target.map Identifier.name) transfer.arguments.length)
      | other => otherStatement context "Call" other
  | .python codes =>
      match statement with
      | .python code _ =>
          codes.forM fun text =>
            same s!"{context}: python code" (showOption (code.map PythonCode.source))
              (showOption (some text))
      | other => otherStatement context "Python" other

def checkStatement (context : String) (statement : Statement) : List OfStatement → Check
  | [] => .ok ()
  | part :: rest => do
      OfStatement.check context statement part
      checkStatement context statement rest

def checkLabel (context : String) (head : LabelHead) (body : List Statement) :
    List OfLabel → Check
  | [] => .ok ()
  | part :: rest => do
      OfLabel.check context head body part
      checkLabel context head body rest

def OfLabel.check (context : String) (head : LabelHead) (body : List Statement) : OfLabel → Check
  | .name name =>
      same s!"{context}: label name" (showOption (head.name.map Identifier.name))
        (showOption (some name))
  | .parameters names =>
      same s!"{context}: parameters" (showList (head.parameters.map (·.name.name)))
        (showList names)
  | .bodyCount count =>
      same s!"{context}: body statement count" (toString body.length) (toString count)
  | .body index parts =>
      match body[index]? with
      | some statement => checkStatement s!"{context}.body[{index}]" statement parts
      | none =>
          .error (.missing
            s!"{context}: no body statement at index {index} (have {body.length})")

end

/-! ## Documents -/

inductive OfDocument where
  | statementCount (count : Nat)
  | statement (index : Nat) (parts : List OfStatement)

def OfDocument.check (document : Document) : OfDocument → Check
  | .statementCount count =>
      let found := document.statements.length
      same s!"document: expected {count} top-level statements, found {found}" (toString found)
        (toString count)
  | .statement index parts =>
      match document.statements[index]? with
      | some found => checkStatement s!"statement[{index}]" found parts
      | none =>
          .error (.missing
            s!"document: no statement at index {index} (have {document.statements.length})")

end Expectation

namespace Document

def meets (document : Document) (expectations : List Expectation.OfDocument) :
    Except Expectation.Failure Unit :=
  expectations.forM (Expectation.OfDocument.check document)

end Document

end NovelScript
