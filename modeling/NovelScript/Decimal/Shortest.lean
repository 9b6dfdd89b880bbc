/-!
# Shortest decimals

A binary fraction stands for every real number that rounds to it.  Its shortest decimal lies on the
coarsest decimal grid that has a point among them; of two such points the nearer one is taken.
-/

namespace NovelScript

/-- The number `digits * 10 ^ exponent`. -/
structure Decimal where
  digits : Nat
  exponent : Int
  deriving DecidableEq, Repr

namespace Decimal

/-! ## Binary fractions -/

/-- The real numbers that round to `mantissa * 2 ^ exponent`, in quarters of a last place. -/
structure Interval where
  low : Nat
  middle : Nat
  high : Nat
  /-- The power of two of one quarter. -/
  exponent : Int
  closed : Bool
  deriving DecidableEq, Repr

/-- The interval around `mantissa * 2 ^ exponent`; below a power of two the neighbours are twice as
near. -/
def Interval.around (mantissa : Nat) (exponent : Int) (isPower : Bool) : Interval where
  low := 4 * mantissa - if isPower then 1 else 2
  middle := 4 * mantissa
  high := 4 * mantissa + 2
  exponent := exponent - 2
  closed := mantissa % 2 == 0

/-! ## Grids -/

/-- The nearest point of the grid of multiples of `10 ^ grid` inside the interval, as a multiple. -/
def Interval.nearestOn (interval : Interval) (grid : Int) : Option Nat :=
  let scale := Nat.pow 2 interval.exponent.toNat * Nat.pow 10 (-grid).toNat
  let unit := Nat.pow 2 (-interval.exponent).toNat * Nat.pow 10 grid.toNat
  let inside (multiple : Nat) : Bool :=
    let point := multiple * unit
    let low := interval.low * scale
    let high := interval.high * scale
    if interval.closed then low ≤ point && point ≤ high else low < point && point < high
  let below := interval.middle * scale / unit
  let rest := interval.middle * scale % unit
  match inside below, inside (below + 1) with
  | true, true =>
      if 2 * rest < unit || (2 * rest == unit && below % 2 == 0) then some below
      else some (below + 1)
  | true, false => some below
  | false, true => some (below + 1)
  | false, false => none

def Interval.coarsest (interval : Interval) : Nat → Int → Decimal
  | 0, grid => ⟨0, grid⟩
  | finer + 1, grid =>
      match interval.nearestOn grid with
      | some multiple => ⟨multiple, grid⟩
      | none => interval.coarsest finer (grid - 1)

/-! ## Floating-point numbers -/

/-- The grids that doubles need run from the first power of ten above them all down to the last
place of the smallest. -/
def coarsestGrid : Int := 309

def gridCount : Nat := 634

/-- The bit above the fraction of a double, which its bits leave out. -/
def hiddenBit : Nat := 0x10000000000000

def shortest (value : Float) : Decimal :=
  let bits : Nat := value.toBits.toNat
  let fraction : Nat := bits % hiddenBit
  let scale : Nat := bits / hiddenBit % 0x800
  let interval :=
    if scale = 0 then Interval.around fraction (-1074) false
    else Interval.around (hiddenBit + fraction) (Int.ofNat scale - 1075) (fraction == 0 && scale > 1)
  interval.coarsest gridCount coarsestGrid

end Decimal

end NovelScript
