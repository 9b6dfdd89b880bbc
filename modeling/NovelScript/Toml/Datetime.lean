import NovelScript.Text.Layout
import NovelScript.Toml.Number

/-!
# Dates and times

A date, a time of day, or both with or without the distance from universal time.  Settings have no
use for them but as text, so reading one yields its canonical text, alone in a table under a
reserved name.  A table that starts with that name stands for a date even if it was written as one.
-/

namespace NovelScript.Toml

/-! ## Parts -/

def fixedDigits (count : Nat) : Reader Nat := fun text =>
  let found := text.take count
  if found.length = count ∧ found.all Char.isDigit then some (valueOf 10 found, text.drop count)
  else none

def twoDigits (low high : Nat) : Reader Nat := fun text => do
  let (value, rest) ← fixedDigits 2 text
  if low ≤ value ∧ value ≤ high then some (value, rest) else none

def skipMark (mark : Char) : List Char → Option (List Char)
  | character :: rest => if character = mark then some rest else none
  | [] => none

def isLeapYear (year : Nat) : Bool := year % 4 == 0 && (year % 100 != 0 || year % 400 == 0)

def daysIn (year month : Nat) : Nat :=
  match month with
  | 2 => if isLeapYear year then 29 else 28
  | 4 | 6 | 9 | 11 => 30
  | _ => 31

/-- Two digits, with a zero in front if need be. -/
def pad (value : Nat) : String := Text.padNumber 2 value

/-! ## Dates -/

def dateAfter (year : Nat) : Reader String := fun text => do
  let (month, rest) ← twoDigits 1 12 text
  let (day, rest) ← twoDigits 1 (daysIn year month) (← skipMark '-' rest)
  some (Text.padNumber 4 year ++ "-" ++ pad month ++ "-" ++ pad day, rest)

/-! ## Times -/

/-- Fractions of a second, of which nine digits count and zeros at the end do not. -/
def secondFraction (text : List Char) : String × List Char :=
  match text with
  | '.' :: rest =>
      let digits := rest.takeWhile Char.isDigit
      if digits.isEmpty then ("", text)
      else
        let kept := ((digits.take 9).reverse.dropWhile (· = '0')).reverse
        (if kept.isEmpty then "" else "." ++ String.ofList kept, rest.drop digits.length)
  | _ => ("", text)

def timeAfter (hour : Nat) : Reader String := fun text => do
  let (minute, rest) ← twoDigits 0 59 text
  let (second, rest) ← twoDigits 0 60 (← skipMark ':' rest)
  let (fraction, rest) := secondFraction rest
  some (pad hour ++ ":" ++ pad minute ++ ":" ++ pad second ++ fraction, rest)

/-- The text of so many minutes before or behind universal time. -/
def offsetText (isBehind : Bool) (minutes : Nat) : String :=
  (if isBehind && minutes != 0 then "-" else "+") ++ pad (minutes / 60) ++ ":" ++ pad (minutes % 60)

/-- The distance from universal time, if there is one, in hours and minutes up to bounds. -/
def timeOffset (lastHour lastMinute : Nat) : Reader String := fun text =>
  match text with
  | 'Z' :: rest | 'z' :: rest => some ("Z", rest)
  | mark :: rest =>
      if mark = '+' ∨ mark = '-' then do
        let (hour, rest) ← twoDigits 0 lastHour rest
        let (minute, rest) ← twoDigits 0 lastMinute (← skipMark ':' rest)
        let minutes := 60 * hour + minute
        if minutes ≤ 24 * 60 then some (offsetText (mark = '-') minutes, rest) else none
      else some ("", text)
  | [] => some ("", text)

def timeStart (lastHour : Nat) : Reader Nat := fun text => do
  let (hour, rest) ← twoDigits 0 lastHour text
  some (hour, ← skipMark ':' rest)

def separatesTime (mark : Char) : Bool := mark = 'T' || mark = 't' || mark = ' '

def timeAfterDate : Reader String := fun text =>
  match text with
  | mark :: rest =>
      if separatesTime mark then
        match timeStart 23 rest with
        | some (hour, rest) => do
            let (time, rest) ← timeAfter hour rest
            let (offset, rest) ← timeOffset 23 59 rest
            some ("T" ++ time ++ offset, rest)
        | none => some ("", text)
      else some ("", text)
  | [] => some ("", text)

/-! ## Both -/

/-- What starts like a date or a time has to be one; anything else is left to others. -/
inductive DatetimeStart where
  | date (year : Nat) (rest : List Char)
  | time (hour : Nat) (rest : List Char)
  | neither
  deriving DecidableEq, Repr

def datetimeStart (text : List Char) : DatetimeStart :=
  let year := do
    let (year, rest) ← fixedDigits 4 text
    some (year, ← skipMark '-' rest)
  match year, timeStart 23 text with
  | some (year, rest), _ => .date year rest
  | none, some (hour, rest) => .time hour rest
  | none, none => .neither

def datetimeName : String := "$__toml_private_datetime"

def datetimeTable (text : String) : Value := .table [(datetimeName, .text text)]

def numberOrDatetime : Reader Value := fun text => do
  match datetimeStart text with
  | .date year rest =>
      let (date, rest) ← dateAfter year rest
      let (time, rest) ← timeAfterDate rest
      some (datetimeTable (date ++ time), rest)
  | .time hour rest =>
      let (time, rest) ← timeAfter hour rest
      some (datetimeTable time, rest)
  | .neither => number text

/-! ## Dates as texts -/

/-- A time behind a date, which has to be one here: midnight may end a day, and any minutes may be
added to an offset of at most a day. -/
def timeText? (text : List Char) : Option String := do
  let (hour, rest) ← timeStart 24 text
  let (time, rest) ← timeAfter hour rest
  let (offset, rest) ← timeOffset 99 99 rest
  if rest.isEmpty then some ("T" ++ time ++ offset) else none

/-- The canonical text of the date or time that a whole text spells. -/
def datetimeText? (text : List Char) : Option String := do
  if text[2]? = some ':' then
    let (hour, rest) ← timeStart 24 text
    let (time, rest) ← timeAfter hour rest
    if rest.isEmpty then some time else none
  else
    let (year, rest) ← fixedDigits 4 text
    let (date, rest) ← dateAfter year (← skipMark '-' rest)
    match rest with
    | [] => some date
    | mark :: rest =>
        if separatesTime mark then (timeText? rest).map (date ++ ·) else none

mutual

def resolve : Value → Option Value
  | .table entries =>
      match entries with
      | (name, value) :: _ =>
          if name = datetimeName then
            match value with
            | .text text => (datetimeText? text.toList).map .text
            | _ => none
          else (resolveEntries entries).map .table
      | [] => some (.table [])
  | .list values => (resolveList values).map .list
  | value => some value

def resolveEntries : List (String × Value) → Option (List (String × Value))
  | [] => some []
  | (name, value) :: rest => do
      let value ← resolve value
      some ((name, value) :: (← resolveEntries rest))

def resolveList : List Value → Option (List Value)
  | [] => some []
  | value :: rest => do
      let value ← resolve value
      some (value :: (← resolveList rest))

end

end NovelScript.Toml
