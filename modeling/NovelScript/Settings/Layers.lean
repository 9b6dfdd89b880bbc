import NovelScript.Files
import NovelScript.Settings.Path
import NovelScript.Settings.Reading
import NovelScript.Toml.Document

/-!
# Settings

Settings come in layers: the defaults at the bottom, files above them in order, and overrides of
single values on top.  Each layer is put over those below it, and the result is read once.
-/

namespace NovelScript

structure Settings where
  analysis : AnalysisOptions := {}
  showLineNumbers : Bool := false
  /-- How many diagnostics are printed; zero means all. -/
  maxReported : Nat := 100
  deriving DecidableEq, Repr

inductive Layer where
  | file (name : String) (required : Bool)
  | override (path : String) (value : Value)
  deriving Repr

namespace Settings

def limit (settings : Settings) (total : Nat) : Nat :=
  if settings.maxReported = 0 then total else Nat.min total settings.maxReported

/-! ## As data -/

def toValue (settings : Settings) : Value :=
  .table [
    ("analysis", .table [
      ("builtins", .list (settings.analysis.builtins.map .text)),
      ("report_unresolved", .bool settings.analysis.reportUnresolved)]),
    ("inspect", .table [("show_line_numbers", .bool settings.showLineNumbers)]),
    ("diagnostics", .table [("max_reported", .integer settings.maxReported)])]

def missing (name : String) : Reading α :=
  .error (.malformed s!"missing field {Value.backquoted name}")

def sectionOf (name : String) (settings : Value) : Reading Value :=
  match settings.entries.lookup name with
  | some value => .ok value
  | none => missing name

def readAnalysis (value : Value) : Reading AnalysisOptions := do
  let options : AnalysisOptions := {}
  let parts ← value.sectionParts "analysis" "AnalysisOptions" ["builtins", "report_unresolved"]
  let read {α : Type} (index : Nat) (convert : String → Value → Reading α) (default : α) :
      Reading α :=
    match (parts[index]?).join with
    | some (key, value) => convert key value
    | none => .ok default
  let builtins ← read 0 Value.readTexts options.builtins
  let reportUnresolved ← read 1 Value.readBool options.reportUnresolved
  .ok ⟨builtins, reportUnresolved⟩

def readOnly (key type name : String) (convert : String → Value → Reading α) (value : Value) :
    Reading α := do
  let parts ← value.sectionParts key type [name]
  match parts, value with
  | [some (key, value)], _ => convert key value
  | _, .list _ => .error (.malformed s!"invalid length 0, expected struct {type} with 1 element")
  | _, _ => missing name

def ofValue (value : Value) : Reading Settings := do
  let analysis ← readAnalysis (← sectionOf "analysis" value)
  let showLineNumbers ←
    readOnly "inspect" "InspectConfig" "show_line_numbers" Value.readBool
      (← sectionOf "inspect" value)
  let maxReported ←
    readOnly "diagnostics" "DiagnosticsConfig" "max_reported" Value.readNatural
      (← sectionOf "diagnostics" value)
  .ok ⟨analysis, showLineNumbers, maxReported⟩

/-! ## Layers -/

/-- The paths of a settings file, whose name may lack its ending. -/
def filePaths (name : String) : List String := name :: (withEnding ".toml" name).toList

/-- The text at the first of some paths that leads to a file. -/
def readFirst (files : Files) : List String → Except ReadFailure String
  | [] => .error .absent
  | path :: rest =>
      match files path with
      | .ok text => .ok text
      | .error .invalidText => .error .invalidText
      | .error _ => readFirst files rest

def keyPath (key : String) : SettingPath := (SettingPath.ofText? key).getD ⟨key, []⟩

/-- Put the entries of a file over the settings so far. -/
def putEntries (entries : List (String × Value)) (settings : Value) : Value :=
  entries.foldl (fun settings (key, value) => value.putAt (keyPath key) settings) settings

def putFile (files : Files) (name : String) (required : Bool) (settings : Value) :
    Reading Value :=
  match readFirst files (filePaths name) with
  | .error _ => if required then .error (.unreadable name) else .ok settings
  | .ok text =>
      match Toml.ofText? text with
      | some entries => .ok (putEntries entries settings)
      | none => .error (.unparsable name)

def overrides (layers : List Layer) : Reading (List (SettingPath × Value)) :=
  (layers.filterMap fun
    | .override path value => some (path, value)
    | .file .. => none).mapM fun (path, value) =>
      match SettingPath.ofText? path with
      | some path => .ok (path, value)
      | none => .error (.invalidPath path)

def putFiles (files : Files) (layers : List Layer) (settings : Value) : Reading Value :=
  layers.foldlM
    (fun settings layer =>
      match layer with
      | .file name required => putFile files name required settings
      | .override .. => .ok settings)
    settings

def load (files : Files) (layers : List Layer) : Reading Settings := do
  let overrides ← overrides layers
  let defaults : Settings := {}
  let settings ← putFiles files layers defaults.toValue
  ofValue (overrides.foldl (fun settings (path, value) => value.putAt path settings) settings)

end Settings

end NovelScript
