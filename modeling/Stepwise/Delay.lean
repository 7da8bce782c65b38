import Stepwise.Number.Binary

/-!
# Delays

A delay is a whole number of nanoseconds. It is made from a number of seconds by rounding the exact
value of the double to the nearest nanosecond, a half to the even neighbour; the seconds have to fit
a word of 64 bits.
-/

namespace Stepwise.Delay

/-- `n / d` rounded to the nearest whole number, a half to the even one. -/
def roundDiv (n d : Nat) : Nat :=
  let q := n / d
  let twice := 2 * (n % d)
  if twice < d then q else if d < twice then q + 1 else q + q % 2

/-- A number of seconds in nanoseconds; negative, infinite and too large ones are none. -/
def ofSeconds? (x : Float) : Option Nat :=
  match Binary.ofFloat x with
  | .nan => none
  | .infinite _ => none
  | .finite negative mant exp =>
    let s := Binary.split mant exp
    if negative && mant ≠ 0 then none
    else if 0x10000000000000000 ≤ s.whole then none
    else some (s.whole * 1000000000 + roundDiv (s.rest * 1000000000) s.denominator)

/-- A delay of `ms` milliseconds, stretched by a factor. What comes out negative or as "not a
number" is no delay at all. -/
def ofMilliseconds? (factor ms : Float) : Option Nat :=
  ofSeconds? (Number.max (ms * factor) 0.0 / 1000.0)

end Stepwise.Delay
