import Stepwise.Number.Shortest

/-!
# Number text

A double is written with its shortest digits. What differs from one output to the next is decided in
one record: which exponents are written positionally, whether a whole number keeps a point, and how
ties between equally short decimals go.
-/

namespace Stepwise

structure NumberFormat where
  /-- Where a tie between two shortest decimals goes. -/
  tie : Tie
  /-- Exponents of the leading digit, lowest and first excluded, that are written positionally;
  `none` writes every number so. -/
  positional : Option (Int × Int)
  /-- What follows a whole number written positionally. -/
  wholeSuffix : String

namespace Number

def zeros (n : Nat) : String := String.ofList (List.replicate n '0')

/-- Digits with a point `point` places from their left end; `point` may lie outside of them. -/
def placePoint (suffix : String) (digits : List Char) (point : Int) : String :=
  if point ≤ 0 then
    "0." ++ zeros (-point).toNat ++ String.ofList digits
  else if digits.length ≤ point.toNat then
    String.ofList digits ++ zeros (point.toNat - digits.length) ++ suffix
  else
    String.ofList (digits.take point.toNat) ++ "." ++ String.ofList (digits.drop point.toNat)

/-- One digit in front of the point, and the exponent with its sign. -/
def scientific (digits : List Char) (exponent : Int) : String :=
  let fraction := digits.drop 1
  String.ofList (digits.take 1)
    ++ (if fraction.isEmpty then "" else "." ++ String.ofList fraction)
    ++ (if exponent < 0 then "e-" else "e+") ++ toString exponent.natAbs

def layout (format : NumberFormat) (d : Decimal) : String :=
  let digits := Nat.toDigits 10 d.digits
  let leading := d.exponent + digits.length - 1
  match format.positional with
  | none => placePoint format.wholeSuffix digits (leading + 1)
  | some (lowest, first) =>
    if lowest ≤ leading ∧ leading < first then
      placePoint format.wholeSuffix digits (leading + 1)
    else scientific digits leading

/-- The text of a double, `none` if it is infinite or not a number. -/
def finiteText? (format : NumberFormat) (x : Float) : Option String :=
  match Binary.ofFloat x with
  | .nan | .infinite _ => none
  | .finite negative mant exp =>
    let magnitude :=
      if mant = 0 then "0" ++ format.wholeSuffix
      else layout format ((Interval.ofBinary mant exp).shortest format.tie)
    some (if negative then "-" ++ magnitude else magnitude)

/-- Plain text: always positional, no point in a whole number, a tie goes up. -/
def plain : NumberFormat := ⟨.up, none, ""⟩

def text (x : Float) : String :=
  match Binary.ofFloat x with
  | .nan => "NaN"
  | .infinite negative => if negative then "-inf" else "inf"
  | .finite .. => (finiteText? plain x).getD ""

/-- The whole number below `10 ^ 15` in magnitude that `x` is, if it is one. Such numbers are
written as integers, and negative zero as zero. -/
def smallWhole? (x : Float) : Option Int :=
  match whole? x with
  | some n => if n.natAbs < 1000000000000000 then some n else none
  | none => none

end Number

end Stepwise
