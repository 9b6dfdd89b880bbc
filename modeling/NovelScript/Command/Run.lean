import NovelScript.Command.Help
import NovelScript.Json.Forms
import NovelScript.Listing
import NovelScript.Outline
import NovelScript.Settings.Layers

/-!
# Runs

A run answers a request from the files it can see: an exit code and the texts of both outputs.
Problems of a script are output; only what keeps a task from running at all is an error.
-/

namespace NovelScript

structure Outcome where
  code : Nat
  output : String := ""
  errors : String := ""
  deriving DecidableEq, Repr

inductive TaskError where
  | settings (error : SettingsError)
  | unreadable (path : String) (failure : ReadFailure)
  deriving DecidableEq, Repr

namespace TaskError

def message : TaskError → String
  | settings error => s!"invalid configuration: {error.message}"
  | unreadable path failure => s!"cannot read {path}: {failure.message}"

end TaskError

namespace Invocation

/-! ## Settings -/

/-- The settings file that is used if it is there and no other is named. -/
def localSettings : String := "renpy.toml"

def layers (invocation : Invocation) : List Layer :=
  let file : Layer := match invocation.config with
    | some name => .file name true
    | none => .file localSettings false
  let override := match invocation.task with
    | .ast => [Layer.override "inspect.show_line_numbers" (.bool true)]
    | .check => [Layer.override "analysis.report_unresolved" (.bool false)]
    | .tokens | .symbols => []
  file :: if invocation.switched then override else []

def files (invocation : Invocation) : List String :=
  Settings.filePaths (invocation.config.getD localSettings) ++ [invocation.path]

/-! ## Tasks -/

def printJson (value : Json) : String := value.pretty ++ "\n"

def runTokens (invocation : Invocation) (source : List Char) : Outcome :=
  let tokens := Token.ofText source
  { code := 0
    output :=
      if invocation.json then printJson (Json.ofList Token.toJson tokens)
      else Listing.render source tokens invocation.switched }

def runAst (invocation : Invocation) (settings : Settings) (source : List Char) : Outcome :=
  let (document, errors) := Document.ofText source
  { code := 0
    output :=
      if invocation.json then printJson document.toJson
      else document.outline settings.showLineNumbers
    errors := Text.unlines (errors.map fun error => s!"{invocation.path}: {error.display}") }

/-- The diagnostics of a script, as many as the settings allow, and how many there are. -/
def report (invocation : Invocation) (settings : Settings) (diagnostics : List Diagnostic) :
    List String :=
  if diagnostics.isEmpty then [s!"{invocation.path}: no problems found"]
  else
    let total := diagnostics.length
    let shown := settings.limit total
    let count (severity : Severity) : Nat := diagnostics.countP (·.severity == severity)
    let hidden := if shown < total then [s!"... and {total - shown} more"] else []
    (diagnostics.take shown).map (fun found => s!"{invocation.path}: {found.display}") ++
      hidden ++ [s!"{count .error} error(s), {count .warning} warning(s)"]

def runCheck (invocation : Invocation) (settings : Settings) (source : List Char) : Outcome :=
  let analysis := Analysis.ofText source settings.analysis
  let diagnostics := analysis.diagnostics
  { code := if analysis.hasErrors then 1 else 0
    output :=
      if invocation.json then printJson (Json.ofList Diagnostic.toJson diagnostics)
      else Text.unlines (report invocation settings diagnostics) }

def symbolLine (symbol : Symbol) : String :=
  let place := match symbol.definition with
    | some span => span.start.displayOneBased
    | none => "builtin"
  Text.padRight 10 symbol.kind.text ++ Text.padRight 24 symbol.name ++ Text.padRight 8 place ++
    s!"{symbol.references.length} reference(s)"

def runSymbols (invocation : Invocation) (settings : Settings) (source : List Char) : Outcome :=
  let analysis := Analysis.ofText source settings.analysis
  let listed := analysis.symbols.symbols.filter fun symbol =>
    invocation.switched || !symbol.isBuiltin
  { code := 0
    output :=
      if invocation.json then printJson (Json.ofList Symbol.toJson listed)
      else Text.unlines (listed.map symbolLine) }

/-- Run a task.  Its settings are read before its script. -/
def run (files : Files) (invocation : Invocation) : Except TaskError Outcome := do
  let settings ← (Settings.load files invocation.layers).mapError TaskError.settings
  let source ← (files invocation.path).mapError (TaskError.unreadable invocation.path)
  let source := source.toList
  match invocation.task with
  | .tokens => .ok (runTokens invocation source)
  | .ast => .ok (runAst invocation settings source)
  | .check => .ok (runCheck invocation settings source)
  | .symbols => .ok (runSymbols invocation settings source)

end Invocation

namespace Request

def versionText : String := "renpy 0.1.0\n"

def usageText : String := "Usage: renpy [OPTIONS] <COMMAND>\n"

def answer (files : Files) (arguments : List String) : Outcome :=
  match ofArguments arguments with
  | .error error =>
      { code := 2, errors := s!"error: {error.message}\n\n" ++ usageText }
  | .ok .version => { code := 0, output := versionText }
  | .ok (.help topic) => { code := 0, output := topic.text }
  | .ok (.run invocation) =>
      match invocation.run files with
      | .ok outcome => outcome
      | .error error => { code := 2, errors := s!"Error: {error.message}\n" }

end Request

end NovelScript
