import NovelScript.Text.Quoted

/-!
# Requests

The command line asks for one task on one script, for the version or for help.  Options may stand
before or behind the script; a settings file may be named before the task as well, where a second
one behind the task takes its place.
-/

namespace NovelScript

inductive Task where
  | tokens
  | ast
  | check
  | symbols
  deriving DecidableEq, Repr

namespace Task

def all : List Task := [.tokens, .ast, .check, .symbols]

def name : Task → String
  | tokens => "tokens"
  | ast => "ast"
  | check => "check"
  | symbols => "symbols"

def ofName? (name : String) : Option Task := all.find? (·.name == name)

def switch : Task → String
  | tokens => "all"
  | ast => "line-numbers"
  | check => "no-unresolved"
  | symbols => "builtins"

def summary : Task → String
  | tokens => "List the tokens of a script"
  | ast => "Print the syntax tree of a script"
  | check => "Report lexical, syntax and symbol diagnostics"
  | symbols => "List the symbols a script defines and where they are used"

def switchSummary : Task → String
  | tokens => "Include whitespace and comments"
  | ast => "Prefix every node with its line number"
  | check => "Do not report jumps, calls and names that resolve to nothing"
  | symbols => "Include builtin names"

end Task

structure Invocation where
  task : Task
  path : String
  config : Option String
  json : Bool
  switched : Bool
  deriving DecidableEq, Repr

inductive HelpTopic where
  | program
  | task (task : Task)
  | help
  deriving DecidableEq, Repr

inductive Request where
  | run (invocation : Invocation)
  | version
  | help (topic : HelpTopic)
  deriving DecidableEq, Repr

inductive UsageError where
  | missingTask
  | missingPath
  | missingValue
  | unexpectedArgument (argument : String)
  | repeatedOption
  deriving DecidableEq, Repr

namespace UsageError

def message : UsageError → String
  | missingTask => "a task is required"
  | missingPath => "the path of a script is required"
  | missingValue => "a value is required for '--config <config>' but none was supplied"
  | unexpectedArgument argument => s!"unexpected argument '{argument}' found"
  | repeatedOption => "an option cannot be used multiple times"

end UsageError

/-! ## Single arguments -/

/-- What one argument is, as far as its own text tells. -/
inductive Argument where
  | plain (text : String)
  | separator
  /-- The settings option, with the value that is attached to it. -/
  | config (value : Option String)
  | help
  | version
  | switch (name : String)
  | unknown
  deriving DecidableEq, Repr

namespace Argument

/-- A value attached to a short option, with an equals sign in between or not. -/
def attached : List Char → Option String
  | [] => none
  | '=' :: value => some (String.ofList value)
  | value => some (String.ofList value)

def ofShort : List Char → Argument
  | 'c' :: value => .config (attached value)
  | 'h' :: _ => .help
  | 'V' :: _ => .version
  | _ => .unknown

def ofLong (text : List Char) : Argument :=
  let name := String.ofList (text.takeWhile (· != '='))
  match text.dropWhile (· != '=') with
  | '=' :: value => if name = "config" then .config (some (String.ofList value)) else .unknown
  | _ =>
      if name = "config" then .config none
      else if name = "help" then .help
      else if name = "version" then .version
      else .switch name

def ofText (text : String) : Argument :=
  match text.toList with
  | ['-', '-'] => .separator
  | '-' :: '-' :: long => ofLong long
  | ['-'] => .plain text
  | '-' :: short => ofShort short
  | _ => .plain text

end Argument

/-! ## Command lines -/

structure CommandLine where
  config : Option String := none
  /-- Whether the next argument is the value of the settings option. -/
  awaitsValue : Bool := false
  path : Option String := none
  json : Bool := false
  switched : Bool := false
  deriving DecidableEq, Repr

namespace CommandLine

def setConfig (line : CommandLine) (value : String) : Except UsageError CommandLine :=
  if line.config.isSome then .error .repeatedOption
  else .ok { line with config := some value, awaitsValue := false }

def takeConfig (line : CommandLine) : Option String → Except UsageError CommandLine
  | some value => line.setConfig value
  | none => .ok { line with awaitsValue := true }

def takePath (line : CommandLine) (text : String) : Except UsageError CommandLine :=
  if line.path.isSome then .error (.unexpectedArgument text)
  else .ok { line with path := some text }

def takeSwitch (task : Task) (line : CommandLine) (name : String) :
    Except UsageError CommandLine :=
  if name = "json" then
    if line.json then .error .repeatedOption else .ok { line with json := true }
  else if name = task.switch then
    if line.switched then .error .repeatedOption else .ok { line with switched := true }
  else .error (.unexpectedArgument ("--" ++ name))

def finish (task : Task) (outer : Option String) (line : CommandLine) :
    Except UsageError Request :=
  if line.awaitsValue then .error .missingValue
  else
    match line.path with
    | none => .error .missingPath
    | some path =>
        .ok (.run ⟨task, path, line.config.or outer, line.json, line.switched⟩)

def readTask (task : Task) (outer : Option String) (line : CommandLine) :
    List String → Except UsageError Request
  | [] => line.finish task outer
  | argument :: rest =>
      match line.awaitsValue, Argument.ofText argument with
      | true, .plain value => do readTask task outer (← line.setConfig value) rest
      | true, _ => .error .missingValue
      | false, .plain text => do readTask task outer (← line.takePath text) rest
      | false, .separator => do
          let line ← rest.foldlM takePath line
          line.finish task outer
      | false, .config value => do readTask task outer (← line.takeConfig value) rest
      | false, .switch name => do readTask task outer (← line.takeSwitch task name) rest
      | false, .help => .ok (.help (.task task))
      | false, .version => .error (.unexpectedArgument argument)
      | false, .unknown => .error (.unexpectedArgument argument)

def readHelp : List String → Except UsageError Request
  | [] => .ok (.help .program)
  | [name] =>
      if name = "help" then .ok (.help .help)
      else
        match Task.ofName? name with
        | some task => .ok (.help (.task task))
        | none => .error (.unexpectedArgument name)
  | _ :: argument :: _ => .error (.unexpectedArgument argument)

def read (line : CommandLine) : List String → Except UsageError Request
  | [] => .error (if line.awaitsValue then .missingValue else .missingTask)
  | argument :: rest =>
      match line.awaitsValue, Argument.ofText argument with
      | true, .plain value => do read (← line.setConfig value) rest
      | true, _ => .error .missingValue
      | false, .plain name =>
          if name = "help" then readHelp rest
          else
            match Task.ofName? name with
            | some task => readTask task line.config {} rest
            | none => .error (.unexpectedArgument name)
      | false, .config value => do read (← line.takeConfig value) rest
      | false, .help => .ok (.help .program)
      | false, .version => .ok .version
      | false, .separator =>
          .error (rest.head?.elim .missingTask .unexpectedArgument)
      | false, .switch _ => .error (.unexpectedArgument argument)
      | false, .unknown => .error (.unexpectedArgument argument)

end CommandLine

namespace Request

def ofArguments (arguments : List String) : Except UsageError Request :=
  CommandLine.read {} arguments

end Request

end NovelScript
