import NovelScript.Decimal.Shortest

/-!
# Texts of numbers

A style says how the shortest decimal of a number is laid out: where the point goes, whether a
whole number keeps one, and from where on powers of ten are written.
-/

namespace NovelScript.Decimal

structure Style where
  keepsPoint : Bool
  /-- Whether a number whose first digit has this power of ten is written without an exponent. -/
  isPositional : Int → Bool
  signsPower : Bool

namespace Style

def plain : Style := ⟨false, fun _ => true, false⟩

def pointed : Style := ⟨true, fun _ => true, false⟩

/-- As data formats write numbers: with an exponent from `1e+16` on and below `1e-5`. -/
def data : Style := ⟨true, fun power => -5 ≤ power && power < 16, true⟩

end Style

def zeros (count : Nat) : String := String.ofList (List.replicate count '0')

/-- Digits with the point behind the first `whole` of them. -/
def positional (style : Style) (digits : String) (whole : Int) : String :=
  let count : Int := digits.length
  if count ≤ whole then
    digits ++ zeros (whole - count).toNat ++ if style.keepsPoint then ".0" else ""
  else if 0 < whole then
    String.ofList (digits.toList.take whole.toNat) ++ "." ++
      String.ofList (digits.toList.drop whole.toNat)
  else "0." ++ zeros (-whole).toNat ++ digits

def scientific (style : Style) (digits : String) (power : Int) : String :=
  let sign := if style.signsPower && power ≥ 0 then "+" else ""
  let rest := digits.toList.drop 1
  let fraction := if rest.isEmpty then "" else "." ++ String.ofList rest
  String.ofList (digits.toList.take 1) ++ fraction ++ "e" ++ sign ++ toString power

def textOfPositive (style : Style) (value : Float) : String :=
  let decimal := shortest value
  let digits := toString decimal.digits
  let whole := digits.length + decimal.exponent
  if style.isPositional (whole - 1) then positional style digits whole
  else scientific style digits (whole - 1)

def text (style : Style) (value : Float) : String :=
  if value.isNaN then "NaN"
  else
    let sign := if value.toBits.toNat / 0x8000000000000000 = 1 then "-" else ""
    let size := value.abs
    if size.isInf then sign ++ "inf"
    else if size == 0 then sign ++ if style.keepsPoint then "0.0" else "0"
    else sign ++ textOfPositive style size

end NovelScript.Decimal
