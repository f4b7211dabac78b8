/-!
# The shortest decimal that reads back

A floating-point number stands for all reals that round to it. The decimal with the fewest digits
among them is found exactly: on coarser and then finer decimal grids the two neighbours of the
number are tried, and the first grid on which one of them rounds to the number wins. Of two such
neighbours the nearer one is taken.
-/

namespace GrammarText

/-- A decimal number: `digits` times ten to the power `exponent`. -/
structure Decimal where
  /-- All digits, as one number. -/
  digits : Nat
  /-- The power of ten that they count. -/
  exponent : Int
deriving DecidableEq, Repr

/-- The reals that round to a floating-point number, in units of two to the power `exponent`. -/
structure Rounding where
  low : Nat
  value : Nat
  high : Nat
  /-- Whether the two ends round to the number. -/
  closed : Bool
  /-- The power of two that is the unit. -/
  exponent : Int

namespace Rounding

/-- The reals that round to the given finite number, taken without its sign. -/
def ofFloat (x : Float) : Rounding :=
  let bits := x.toBits.toNat
  let fraction : Nat := bits % Nat.pow 2 52
  let scale : Nat := bits / Nat.pow 2 52 % Nat.pow 2 11
  let significand : Nat := if scale = 0 then fraction else Nat.pow 2 52 + fraction
  -- below a power of two the numbers lie twice as close
  let below : Nat := if fraction = 0 ∧ 1 < scale then 1 else 2
  { low := 4 * significand - below
    value := 4 * significand
    high := 4 * significand + 2
    closed := significand % 2 == 0
    exponent := (if scale = 0 then 1 else (scale : Int)) - 1077 }

/-- A number of units of `r`, on the common scale of `r` and the decimal grid of step ten to the
power `k`. -/
def unitsAt (r : Rounding) (k : Int) (n : Nat) : Nat :=
  n * Nat.pow 2 r.exponent.toNat * Nat.pow 10 (-k).toNat

/-- A number of steps of the grid, on the same scale. -/
def stepsAt (r : Rounding) (k : Int) (n : Nat) : Nat :=
  n * Nat.pow 10 k.toNat * Nat.pow 2 (-r.exponent).toNat

/-- Whether the point number `n` of a grid rounds to the number. -/
def covers (r : Rounding) (k : Int) (n : Nat) : Bool :=
  let point := r.stepsAt k n
  let low := r.unitsAt k r.low
  let high := r.unitsAt k r.high
  if r.closed then low ≤ point && point ≤ high else low < point && point < high

/-- The point of a grid that rounds to the number, the nearer one if there are two. -/
def onGrid? (r : Rounding) (k : Int) : Option Nat :=
  let below := r.unitsAt k r.value / r.stepsAt k 1
  let above := below + 1
  match r.covers k below, r.covers k above with
  | true, true =>
    let twice := 2 * r.unitsAt k r.value
    let middle := r.stepsAt k (below + above)
    some (if twice < middle ∨ (twice = middle ∧ below % 2 = 0) then below else above)
  | true, false => some below
  | false, true => some above
  | false, false => none

/-- The exponent of the finest grid. It is finer than the last digit of any number of 64 bits. -/
def finest : Int := -343

/-- Tries the `n` grids from the given number down to the finest one. -/
def shortestFrom (r : Rounding) : Nat → Decimal
  | 0 => ⟨r.unitsAt finest r.value / r.stepsAt finest 1, finest⟩
  | n + 1 =>
    let k := finest + (n + 1)
    match r.onGrid? k with
    | some digits => ⟨digits, k⟩
    | none => shortestFrom r n

end Rounding

/-- The shortest decimal that rounds to a finite number other than zero, taken without its sign. -/
def Decimal.shortest (x : Float) : Decimal := (Rounding.ofFloat x).shortestFrom 653

end GrammarText
