import NovelScript.Analysis
import NovelScript.Decimal.Text

/-!
# Values

Options and settings arrive as plain data.  Options are read strictly: every part must be of the
type it is meant for, and a mismatch names what was found and what was expected.
-/

namespace NovelScript

inductive Value where
  | nil
  | bool (value : Bool)
  | integer (value : Int)
  | float (value : Float)
  | text (value : String)
  | list (values : List Value)
  | table (entries : List (String × Value))
  deriving Repr

namespace Value

instance : Inhabited Value := ⟨nil⟩

def backquoted (text : String) : String := "\x60" ++ text ++ "\x60"

def boolText (value : Bool) : String := if value then "true" else "false"

/-- What a value is called in messages, given the name of nothing and the style of numbers. -/
def describe (nothing : String) (style : Decimal.Style) : Value → String
  | nil => nothing
  | bool value => "boolean " ++ backquoted (boolText value)
  | integer value => "integer " ++ backquoted (toString value)
  | float value => "floating point " ++ backquoted (Decimal.text style value)
  | text value => "string " ++ Text.quote value
  | list _ => "sequence"
  | table _ => "map"

def mismatch (found expected : String) : String := s!"invalid type: {found}, expected {expected}"

end Value

namespace AnalysisOptions

inductive Problem where
  | wrongType (found : Value) (expected : String)
  /-- A list form with this many elements, which is more than there are options. -/
  | tooLong (count : Nat)
  deriving Repr

def Problem.message : Problem → String
  | .wrongType found expected => Value.mismatch (found.describe "null" .data) expected
  | .tooLong count => s!"invalid length {count}, expected fewer elements in array"

def builtinsOf : Value → Except Problem (List String)
  | .list values =>
      values.mapM fun
        | .text name => .ok name
        | other => .error (.wrongType other "a string")
  | other => .error (.wrongType other "a sequence")

def reportOf : Value → Except Problem Bool
  | .bool value => .ok value
  | other => .error (.wrongType other "a boolean")

def ofParts (builtins report : Option Value) : Except Problem AnalysisOptions := do
  let options : AnalysisOptions := {}
  let names ← (builtins.map builtinsOf).getD (.ok options.builtins)
  let reported ← (report.map reportOf).getD (.ok options.reportUnresolved)
  .ok ⟨names, reported⟩

/-- Read options from a table, or from a list of the options in order. -/
def ofValue : Value → Except Problem AnalysisOptions
  | .table entries => ofParts (entries.lookup "builtins") (entries.lookup "report_unresolved")
  | .list values => do
      let options ← ofParts values[0]? values[1]?
      if values.length > 2 then .error (.tooLong values.length) else .ok options
  | other => .error (.wrongType other "struct AnalysisOptions")

end AnalysisOptions

end NovelScript
