import NovelScript.Settings.Value
import NovelScript.Text.LowerCase

/-!
# Reading settings

Settings are read leniently: a switch may be given by a number or a word, a number by a word, a
fraction or its digits, a text by a number or a switch.  What cannot be converted is an error at its
key; a part of an altogether different shape is an error without one.
-/

namespace NovelScript

inductive SettingsError where
  | wrongType (key found expected : String)
  | malformed (message : String)
  | unparsable (file : String)
  | unreadable (file : String)
  | invalidPath (path : String)
  deriving DecidableEq, Repr

namespace SettingsError

def message : SettingsError → String
  | wrongType key found expected =>
      s!"{Value.mismatch found expected} for key {Value.backquoted key}"
  | malformed message => message
  | unparsable file => s!"configuration file {Text.quote file} is not well formed"
  | unreadable file => s!"configuration file {Text.quote file} not found"
  | invalidPath path => s!"invalid path {Text.quote path}"

end SettingsError

abbrev Reading (α : Type) := Except SettingsError α

namespace Value

/-! ## Conversions -/

def refuse (key : String) (found : Value) (expected : String) : Reading α :=
  .error (.wrongType key (found.describe "unit value" .plain) expected)

def trueWords : List String := ["true", "on", "yes"]

def falseWords : List String := ["false", "off", "no"]

def readBool (key : String) : Value → Reading Bool
  | .bool value => .ok value
  | .integer value => .ok (value != 0)
  | .float value => .ok (value != 0)
  | .text value =>
      let word := Text.lowerCase value
      if word = "1" || trueWords.contains word then .ok true
      else if word = "0" || falseWords.contains word then .ok false
      else refuse key (.text word) "a boolean"
  | other => refuse key other "a boolean"

/-- Digits, with a plus sign in front or not, that spell a number of 64 bits. -/
def naturalOfText? (text : String) : Option Nat :=
  let digits := match text.toList with
    | '+' :: rest => rest
    | digits => digits
  if digits.isEmpty || !digits.all Char.isDigit then none
  else
    let value := digits.foldl (fun value digit => 10 * value + (digit.toNat - '0'.toNat)) 0
    if value < 0x10000000000000000 then some value else none

def readNatural (key : String) : Value → Reading Nat
  | .integer value =>
      if value < 0 then
        .error (.wrongType key ("64-bit integer " ++ backquoted (toString value))
          "an unsigned 64 bit or less integer")
      else .ok value.toNat
  | .bool value => .ok (if value then 1 else 0)
  | .float value => .ok value.round.toUInt64.toNat
  | .text value =>
      let word := Text.lowerCase value
      if trueWords.contains word then .ok 1
      else if falseWords.contains word then .ok 0
      else
        match naturalOfText? value with
        | some number => .ok number
        | none => refuse key (.text value) "an integer"
  | other => refuse key other "an integer"

def readText (key : String) : Value → Reading String
  | .text value => .ok value
  | .bool value => .ok (boolText value)
  | .integer value => .ok (toString value)
  | .float value => .ok (Decimal.text .plain value)
  | other => refuse key other "a string"

/-! ## Shapes -/

def reshape (found : Value) (expected : String) : Reading α :=
  .error (.malformed (mismatch (found.describe "unit value" .pointed) expected))

def readTexts (key : String) : Value → Reading (List String)
  | .list values =>
      values.zipIdx.mapM fun (value, index) => readText s!"{key}[{index}]" value
  | other => reshape other "a sequence"

/-- The parts of a section, each with its key: by name from a table, by position from a list. -/
def sectionParts (key type : String) (names : List String) :
    Value → Reading (List (Option (String × Value)))
  | .table entries =>
      .ok (names.map fun name =>
        (entries.lookup name).map fun value => (s!"{key}.{name}", value))
  | .list values =>
      .ok (names.zipIdx.map fun (_, index) =>
        (values[index]?).map fun value => (s!"{key}[{index}]", value))
  | other => reshape other s!"struct {type}"

end Value

end NovelScript
