import NovelScript.Command.Request
import NovelScript.Text.Layout

/-!
# Help

The help on the program, on one of its tasks, or on help: what it is for, how it is called, and a
row for everything that may stand on the command line.
-/

namespace NovelScript.HelpTopic

/-! ## Rows -/

/-- Rows of two columns, of which the first is as wide as its widest entry. -/
def columns (entries : List (String × String)) : String :=
  let width := entries.foldl (fun width entry => Nat.max width entry.1.length) 0
  Text.unlines (entries.map fun (left, right) => "  " ++ Text.padRight width left ++ "  " ++ right)

/-- An option without a short form, in line with those that have one. -/
def longOnly (name : String) : String := "    --" ++ name

def configRow : String × String :=
  ("-c, --config <config>", "Configuration file layered over the built-in defaults")

def helpRow : String × String := ("-h, --help", "Print help")

def versionRow : String × String := ("-V, --version", "Print version")

def helpSummary : String := "Print this message or the help of the given subcommand(s)"

def jsonRow : String × String := (longOnly "json", "Print JSON instead of text")

/-- The options of a task: its own switch and the settings file in alphabetical order, then those
that all tasks have. -/
def taskRows (task : Task) : List (String × String) :=
  let own := (longOnly task.switch, task.switchSummary)
  let first := if task.switch < "config" then [own, configRow] else [configRow, own]
  first ++ [jsonRow, helpRow]

/-! ## Texts -/

def frame (about usage : String) (parts : List (String × List (String × String))) : String :=
  about ++ "\n\nUsage: renpy " ++ usage ++ "\n" ++
    String.join (parts.map fun (heading, entries) => "\n" ++ heading ++ ":\n" ++ columns entries)

def text : HelpTopic → String
  | .program =>
      frame "A tool for inspecting Ren'Py scripts" "[OPTIONS] <COMMAND>"
        [("Commands", Task.all.map (fun task => (task.name, task.summary)) ++ [("help", helpSummary)]),
          ("Options", [configRow, helpRow, versionRow])]
  | .task asked =>
      frame asked.summary (asked.name ++ " [OPTIONS] <path>")
        [("Arguments", [("<path>", "Path to the .rpy script")]), ("Options", taskRows asked)]
  | .help =>
      frame helpSummary "help [COMMAND]..."
        [("Arguments", [("[COMMAND]...", "Print help for the subcommand(s)")])]

end NovelScript.HelpTopic
