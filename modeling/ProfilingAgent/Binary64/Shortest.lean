import ProfilingAgent.Binary64.Basic
import ProfilingAgent.Text.Digits

set_option autoImplicit false

/-!
# Shortest decimals

Of the decimals that round to a number, the shortest one, and of several such the nearest to the
number, a tie going to the even last digit. For one digit, two digits and so on the two neighbours
of the number on the decimal grid are tried; the first grid with a hit decides.
-/
namespace ProfilingAgent.Binary64

open Text

/-- Digits and the place of the first one: `digits` read as `d.ddd`, times `10 ^ exponent`. -/
structure Decimal where
  digits : List Char
  exponent : Int
deriving Repr, DecidableEq

namespace Shortest

/-- A magnitude and the interval that rounds to it, in quarters of `2 ^ (-1074)`. Below a power of
two the neighbours are half as far apart. -/
structure Interval where
  low : Nat
  value : Nat
  high : Nat
  closed : Bool

def interval (code : Nat) : Interval :=
  let gap := 2 <<< shift code
  let belowGap := if code % binade = 0 ∧ 2 * binade ≤ code then gap / 2 else gap
  let value := 4 * scaled code
  ⟨value - belowGap, value, value + gap, code % 2 = 0⟩

def quarterScale : Nat := 4 * unitScale

def leadingPlace (value : Nat) : Int := (decimal (value * tenTo 350 / quarterScale)).length - 351

def onGrid (value : Nat) (grid : Int) : Nat × Nat :=
  if 0 ≤ grid then (value, quarterScale * tenTo grid.toNat)
  else (value * tenTo (-grid).toNat, quarterScale)

def hits (i : Interval) (grid : Int) (point : Nat) : Bool :=
  let (low, den) := onGrid i.low grid
  let (high, _) := onGrid i.high grid
  if i.closed then low ≤ point * den && point * den ≤ high
  else low < point * den && point * den < high

def pick (i : Interval) (grid : Int) : Option Nat :=
  let (num, den) := onGrid i.value grid
  let below := num / den
  let twice := 2 * (num % den)
  match hits i grid below, hits i grid (below + 1) with
  | true, true =>
    if twice < den || (twice == den && below % 2 == 0) then some below else some (below + 1)
  | true, false => some below
  | false, true => some (below + 1)
  | false, false => none

/-- Tries `n` digits, then one more, `left` times in all. Seventeen digits always suffice. -/
def search (i : Interval) (place : Int) : Nat → Nat → Nat × Int
  | 0, n => (i.value / quarterScale, n)
  | left + 1, n =>
    let grid := place - n + 1
    match pick i grid with
    | some point => (point, grid)
    | none => search i place left (n + 1)

def dropZeros (ds : List Char) : List Char := (ds.reverse.dropWhile (· == '0')).reverse

end Shortest

def shortest (code : Nat) : Decimal :=
  if code = 0 then ⟨['0'], 0⟩
  else
    let i := Shortest.interval code
    let (point, grid) := Shortest.search i (Shortest.leadingPlace i.value) 17 1
    let ds := decimal point
    ⟨Shortest.dropZeros ds, grid + ds.length - 1⟩

end ProfilingAgent.Binary64
