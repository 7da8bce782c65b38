import Stepwise.Number.Binary

/-!
# The fewest digits that read back

Among the decimals that round to a given double, those with the fewest digits are few: on each
decimal grid only the double's two neighbours can be candidates, for if any point of the grid rounds
to the double then one of the two does. The grids are tried from one digit upwards; the first with a
candidate wins, of two candidates the nearer one, and an exact tie is the caller's choice.

A decimal rounds to `mant · 2 ^ exp` when it lies between the midpoints to the two neighbouring
doubles. The midpoints themselves count when `mant` is even. Below a power of two the neighbour is
only half as far away. Seventeen digits always suffice.
-/

namespace Stepwise

/-- `digits · 10 ^ exponent`. -/
structure Decimal where
  digits : Nat
  exponent : Int
  deriving Repr, DecidableEq

/-- Where an exact tie between two shortest decimals goes. -/
inductive Tie where
  | up
  | toEven
  deriving Repr, DecidableEq

namespace Decimal

/-- The number of decimal digits of `n`; zero has one. -/
def width (n : Nat) : Nat := (Nat.toDigits 10 n).length

/-- Move factors of ten from the digits to the exponent. At most `steps` are moved. -/
def strip (steps : Nat) (d : Decimal) : Decimal :=
  match steps with
  | 0 => d
  | steps + 1 =>
    if d.digits % 10 = 0 ∧ d.digits ≠ 0 then strip steps ⟨d.digits / 10, d.exponent + 1⟩
    else d

end Decimal

/-- The numbers that read back as one double, over a common denominator: the double itself is
`value / scale`, and what lies between `low / scale` and `high / scale` rounds to it. -/
structure Interval where
  low : Nat
  value : Nat
  high : Nat
  scale : Nat
  /-- Whether the two ends round to the double as well. -/
  closed : Bool

namespace Interval

/-- The interval of `mant · 2 ^ exp`, in quarters of the last place. -/
def ofBinary (mant : Nat) (exp : Int) : Interval :=
  let below := if mant = 0x10000000000000 ∧ -1074 < exp then 1 else 2
  let shift := exp - 2
  let up := Nat.pow 2 shift.toNat
  { low := (4 * mant - below) * up
    value := 4 * mant * up
    high := (4 * mant + 2) * up
    scale := Nat.pow 2 (-shift).toNat
    closed := mant % 2 = 0 }

/-- The power of ten of the leading digit of the value. -/
def magnitude (i : Interval) : Int :=
  if i.scale ≤ i.value then
    Int.ofNat (Decimal.width (i.value / i.scale)) - 1
  else
    -- where `10 ^ (k - 1) < scale / value ≤ 10 ^ k`, this number has `k` digits
    -Int.ofNat (Decimal.width ((i.scale + i.value - 1) / i.value - 1))

def compareWith (i : Interval) (d : Decimal) (n : Nat) : Ordering :=
  compare (d.digits * Nat.pow 10 d.exponent.toNat * i.scale)
    (n * Nat.pow 10 (-d.exponent).toNat)

def holds (i : Interval) (d : Decimal) : Bool :=
  match i.compareWith d i.low, i.compareWith d i.high with
  | .gt, .lt => true
  | .eq, _ | _, .eq => i.closed
  | _, _ => false

/-- The largest point of the grid `10 ^ exponent` that is at most the value. -/
def lowerNeighbour (i : Interval) (exponent : Int) : Decimal :=
  ⟨i.value * Nat.pow 10 (-exponent).toNat / (i.scale * Nat.pow 10 exponent.toNat), exponent⟩

/-- Twice the value, compared with the sum of two decimals on one grid. -/
def compareMiddle (i : Interval) (a b : Decimal) : Ordering :=
  compare (2 * i.value * Nat.pow 10 (-a.exponent).toNat)
    ((a.digits + b.digits) * Nat.pow 10 a.exponent.toNat * i.scale)

/-- The point of one grid that stands for the double, if the grid has one. -/
def onGrid? (i : Interval) (tie : Tie) (exponent : Int) : Option Decimal :=
  let a := i.lowerNeighbour exponent
  let b : Decimal := ⟨a.digits + 1, exponent⟩
  match i.holds a, i.holds b with
  | false, false => none
  | true, false => some a
  | false, true => some b
  | true, true =>
    match i.compareMiddle a b, tie with
    | .lt, _ => some a
    | .gt, _ => some b
    | .eq, .up => some b
    | .eq, .toEven => some (if a.digits % 2 = 0 then a else b)

/-- The first of the grids with one, two, … seventeen digits that has a candidate. -/
def shortest (i : Interval) (tie : Tie) : Decimal :=
  let top := i.magnitude
  let found := (List.range 17).findSome? fun (k : Nat) => i.onGrid? tie (top - k)
  Decimal.strip 20 (found.getD (i.lowerNeighbour (top - 16)))

end Interval

end Stepwise
