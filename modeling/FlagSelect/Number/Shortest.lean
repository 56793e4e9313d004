/-!
# Shortest decimals

A number known up to an interval around it is written with the fewest digits that stay inside the
interval. `shortest` tries decimal grids from the coarsest to finer ones; the first grid with a
point in the interval wins. Only the two neighbours of the number on a grid need a test: if any
point of the grid lies in the interval, so does one of them. Of two hits the nearer one is taken,
and a tie goes to the larger.
-/

namespace FlagSelect.Number

/-- A number `value / den` between `low / den` and `high / den`; the bounds themselves belong to
the interval if `closed` holds. -/
structure Interval where
  low : Nat
  value : Nat
  high : Nat
  den : Nat
  closed : Bool

/-- The number `coefficient * 10 ^ exponent`. -/
structure Decimal where
  coefficient : Nat
  exponent : Int
deriving DecidableEq

namespace Interval

/-- The interval in units of `10 ^ e`: all its numbers divided by that power. -/
def scale (i : Interval) (e : Int) : Interval :=
  if 0 ≤ e then { i with den := i.den * Nat.pow 10 e.toNat }
  else
    let p := Nat.pow 10 (-e).toNat
    { i with low := i.low * p, value := i.value * p, high := i.high * p }

/-- Whether the whole number `n` lies in the interval. -/
def holds (i : Interval) (n : Nat) : Bool :=
  if i.closed then i.low ≤ n * i.den && n * i.den ≤ i.high
  else i.low < n * i.den && n * i.den < i.high

/-- The whole number in the interval nearest to its value, if there is one next to the value. -/
def nearest? (i : Interval) : Option Nat :=
  let below := i.value / i.den
  let above := below + 1
  match i.holds below, i.holds above with
  | true, true => if i.value - below * i.den < above * i.den - i.value then below else above
  | true, false => below
  | false, true => above
  | false, false => none

/-- Tries the grids `10 ^ e`, `10 ^ (e - 1)` and so on, `steps` of them. -/
def search (i : Interval) : Nat → Int → Option Decimal
  | 0, _ => none
  | steps + 1, e =>
    match (i.scale e).nearest? with
    | some n => some ⟨n, e⟩
    | none => search i steps (e - 1)

end Interval

/-- The decimal with the fewest digits in the interval, as it is found on the grids from
`10 ^ top` down; `none` if none of `steps` grids has one. -/
def shortest? (i : Interval) (steps top : Nat) : Option Decimal :=
  i.search steps top

/-- The digits of a numeral and where the point stands: `0.d₁d₂… * 10 ^ point`. -/
def Decimal.positional (d : Decimal) : String :=
  let ds := Nat.toDigits 10 d.coefficient
  let point : Int := ds.length + d.exponent
  if 0 ≤ d.exponent then String.ofList (ds ++ List.replicate d.exponent.toNat '0')
  else if 0 < point then
    String.ofList (ds.take point.toNat ++ '.' :: ds.drop point.toNat)
  else String.ofList ('0' :: '.' :: List.replicate (-point).toNat '0' ++ ds)

example : (Decimal.mk 25 (-1)).positional = "2.5" := by decide
example : (Decimal.mk 25 (-4)).positional = "0.0025" := by decide
example : (Decimal.mk 25 2).positional = "2500" := by decide

end FlagSelect.Number
