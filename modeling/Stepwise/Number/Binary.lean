/-!
# Doubles as exact numbers

A double that is neither infinite nor "not a number" is a whole number times a power of two.
Everything the library does with a double beyond the four operations and comparison goes through
that exact reading: rounding to a whole number, conversion to an integer of a fixed range, and the
shortest decimal text. All of it is arithmetic on `Nat` and `Int`, read off the bits.
-/

namespace Stepwise

inductive Binary where
  | nan
  | infinite (negative : Bool)
  /-- `mant · 2 ^ exp`, negated if `negative`; zero keeps its sign. -/
  | finite (negative : Bool) (mant : Nat) (exp : Int)
  deriving Repr

namespace Binary

/-- Read the sign bit, the eleven exponent bits and the fraction. -/
def ofFloat (x : Float) : Binary :=
  let bits := x.toBits.toNat
  let negative := bits / 0x8000000000000000 == 1
  let expBits := bits / 0x10000000000000 % 2048
  let fraction := bits % 0x10000000000000
  if expBits = 2047 then
    if fraction = 0 then .infinite negative else .nan
  else if expBits = 0 then
    -- subnormal numbers have no leading one
    .finite negative fraction (-1074)
  else
    .finite negative (fraction + 0x10000000000000) (Int.ofNat expBits - 1075)

/-- Whole part and remainder of the magnitude, the remainder over the given denominator. -/
structure Split where
  whole : Nat
  rest : Nat
  denominator : Nat

/-- `mant · 2 ^ exp` as `whole + rest / denominator`. -/
def split (mant : Nat) (exp : Int) : Split :=
  if 0 ≤ exp then
    ⟨mant * Nat.pow 2 exp.toNat, 0, 1⟩
  else
    let d := Nat.pow 2 (-exp).toNat
    ⟨mant / d, mant % d, d⟩

end Binary

namespace Number

open Binary

/-- `±n` as a double, keeping the sign of zero. -/
def signed (negative : Bool) (n : Nat) : Float :=
  if negative then -(Float.ofNat n) else Float.ofNat n

/-- The whole number that `x` is, if it is one. -/
def whole? (x : Float) : Option Int :=
  match Binary.ofFloat x with
  | .nan | .infinite _ => none
  | .finite negative mant exp =>
    let s := Binary.split mant exp
    if s.rest = 0 then some (if negative then -(s.whole : Int) else s.whole) else none

/-- Move a finite `x` to a whole number. `up` says from the sign and the fractional part whether the
magnitude grows; the result has the sign of `x`, so a negative number can become negative zero.
A double with no fractional part is returned as it is. -/
def toWhole (up : Bool → Binary.Split → Bool) (x : Float) : Float :=
  match Binary.ofFloat x with
  | .nan | .infinite _ => x
  | .finite negative mant exp =>
    let s := Binary.split mant exp
    if s.rest = 0 then x
    else signed negative (if up negative s then s.whole + 1 else s.whole)

/-- The largest whole number that is at most `x`. -/
def floor (x : Float) : Float := toWhole (fun negative _ => negative) x

/-- The smallest whole number that is at least `x`. -/
def ceil (x : Float) : Float := toWhole (fun negative _ => !negative) x

def trunc (x : Float) : Float := toWhole (fun _ _ => false) x

/-- The nearest whole number; a half goes away from zero. -/
def round (x : Float) : Float := toWhole (fun _ s => s.denominator ≤ 2 * s.rest) x

/-- The whole part of `x` as an integer between `lo` and `hi`: what lies outside is moved to the
nearer end, and "not a number" is zero. -/
def toIntIn (lo hi : Int) (x : Float) : Int :=
  match Binary.ofFloat x with
  | .nan => 0
  | .infinite negative => if negative then lo else hi
  | .finite negative mant exp =>
    let n := (Binary.split mant exp).whole
    max lo (min hi (if negative then -(n : Int) else n))

def toInt64 (x : Float) : Int := toIntIn (-0x8000000000000000) 0x7fffffffffffffff x

def toInt32 (x : Float) : Int := toIntIn (-0x80000000) 0x7fffffff x

/-- A count: negative numbers are zero, and huge ones stop at the largest word of 64 bits. -/
def toCount (x : Float) : Nat := (toIntIn 0 0xffffffffffffffff x).toNat

def toUInt32 (x : Float) : UInt32 := UInt32.ofNat (toIntIn 0 0xffffffff x).toNat

/-- `base ^ n` by squaring: the power of two below the top of `n` is the square of the one before,
and `acc` collects those that `n` has. Rounding happens at every product, so the order matters. -/
def powNat (base acc : Float) (n : Nat) : Float :=
  if h : n < 2 then
    if n = 1 then acc * base else acc
  else
    powNat (base * base) (if n % 2 = 1 then acc * base else acc) (n / 2)
termination_by n

def pow (base : Float) (n : Int) : Float :=
  if n < 0 then 1.0 / powNat base 1.0 n.natAbs else powNat base 1.0 n.toNat

/-- The smaller of two numbers; a "not a number" gives way to the other. -/
def min (a b : Float) : Float :=
  if a.isNaN then b else if b.isNaN then a else if b < a then b else a

/-- The larger of two numbers; a "not a number" gives way to the other. -/
def max (a b : Float) : Float :=
  if a.isNaN then b else if b.isNaN then a else if a < b then b else a

end Number

end Stepwise
