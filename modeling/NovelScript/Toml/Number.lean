import NovelScript.Settings.Value
import NovelScript.Toml.Text

/-!
# Numbers

Whole numbers of 64 bits in four bases, and floating-point numbers.  Digits may be grouped by single
underscores between them.  A number too large for a double is refused, unless it is negative.
-/

namespace NovelScript.Toml

/-! ## Digits -/

/-- Digits behind a first one; an underscore has to stand between two digits. -/
def moreDigits (isDigit : Char → Bool) : Reader (List Char)
  | '_' :: digit :: rest => do
      if isDigit digit then
        let (tail, rest) ← moreDigits isDigit rest
        some (digit :: tail, rest)
      else none
  | ['_'] => none
  | digit :: rest => do
      if isDigit digit then
        let (tail, rest) ← moreDigits isDigit rest
        some (digit :: tail, rest)
      else some ([], digit :: rest)
  | [] => some ([], [])

def digits (isDigit : Char → Bool) : Reader (List Char)
  | digit :: rest => do
      if isDigit digit then
        let (tail, rest) ← moreDigits isDigit rest
        some (digit :: tail, rest)
      else none
  | [] => none

/-- The digits of a whole number in decimal, which start with a zero only if it is the only one. -/
def wholeDigits : Reader (List Char)
  | '0' :: rest => some (['0'], rest)
  | text => digits Char.isDigit text

def sign (text : List Char) : Bool × List Char :=
  match text with
  | '-' :: rest => (true, rest)
  | '+' :: rest => (false, rest)
  | _ => (false, text)

def valueOf (base : Nat) (digits : List Char) : Nat :=
  digits.foldl (fun value digit => base * value + (hexDigit? digit).getD 0) 0

/-! ## Whole numbers -/

/-- A number of 64 bits with a sign. -/
def bounded (value : Int) : Option Value :=
  if -0x8000000000000000 ≤ value ∧ value < 0x8000000000000000 then some (.integer value) else none

def inBase (base : Nat) (isDigit : Char → Bool) : Reader Value := fun text => do
  let (digits, rest) ← digits isDigit text
  some (← bounded (valueOf base digits), rest)

/-! ## Floating-point numbers -/

/-- The double nearest to `digits * 10 ^ power`; only powers that bring it near one matter. -/
def nearest (digits : Nat) (power : Int) : Float :=
  let magnitude := (Nat.toDigits 10 digits).length + power
  if digits = 0 ∨ magnitude < -400 then 0.0
  else if magnitude > 400 then 1.0 / 0.0
  else Float.ofScientific digits (power < 0) power.natAbs

def exponent : Reader (Option Int) := fun text =>
  match text with
  | 'e' :: rest | 'E' :: rest => do
      let (negative, rest) := sign rest
      let (digits, rest) ← digits Char.isDigit rest
      let value : Int := valueOf 10 digits
      some (some (if negative then -value else value), rest)
  | _ => some (none, text)

def fraction : Reader (Option (List Char)) := fun text =>
  match text with
  | '.' :: rest => do
      let (digits, rest) ← digits Char.isDigit rest
      some (some digits, rest)
  | _ => some (none, text)

def decimalNumber : Reader Value := fun text => do
  let (negative, unsigned) := sign text
  let (whole, rest) ← wholeDigits unsigned
  let (places, rest) ← fraction rest
  let (power, rest) ← exponent rest
  match places, power with
  | none, none =>
      let value : Int := valueOf 10 whole
      some (← bounded (if negative then -value else value), rest)
  | _, _ =>
      let places := places.getD []
      let size := nearest (valueOf 10 (whole ++ places)) (power.getD 0 - places.length)
      let value := if negative then -size else size
      if value == 1.0 / 0.0 then none else some (.float value, rest)

/-- An infinity or no number at all, by name. -/
def specialNumber (negative : Bool) : Reader Value
  | 'i' :: 'n' :: 'f' :: rest =>
      some (.float (if negative then -(1.0 / 0.0) else 1.0 / 0.0), rest)
  | 'n' :: 'a' :: 'n' :: rest => some (.float (0.0 / 0.0), rest)
  | _ => none

def number : Reader Value := fun text =>
  match text with
  | '0' :: 'x' :: rest => inBase 16 (fun digit => (hexDigit? digit).isSome) rest
  | '0' :: 'o' :: rest => inBase 8 (fun digit => '0' ≤ digit && digit ≤ '7') rest
  | '0' :: 'b' :: rest => inBase 2 (fun digit => digit = '0' || digit = '1') rest
  | _ =>
      let (negative, unsigned) := sign text
      match specialNumber negative unsigned with
      | some result => some result
      | none => decimalNumber text

end NovelScript.Toml
