import Stepwise.Number.Binary

/-!
# Reading decimal text

A number is an optional sign, digits with an optional point among or around them, and an optional
exponent; or one of the words `inf`, `infinity` and `nan` in any letter case. There must be a digit
in front of the exponent, and one in it if it is there. The double nearest to the decimal is the
result, so a number too large is infinite and one too small is zero.
-/

namespace Stepwise.Number

def digitValue (c : Char) : Nat := c.toNat - '0'.toNat

/-- The number that a run of digits writes, continued from `acc`. -/
def natOfDigits (acc : Nat) (ds : List Char) : Nat :=
  ds.foldl (fun n c => 10 * n + digitValue c) acc

/-- The leading digits of a text, and what follows them. -/
def spanDigits (cs : List Char) : List Char × List Char :=
  (cs.takeWhile Char.isDigit, cs.dropWhile Char.isDigit)

/-- The double nearest to `mant · 10 ^ exp`. Exponents far outside of a double's range are cut
short, so that the power of ten stays small. -/
def ofDecimal (mant : Nat) (exp : Int) : Float :=
  let top := exp + (Nat.toDigits 10 mant).length
  if mant = 0 then 0.0
  else if top > 400 then 1.0 / 0.0
  else if top < -400 then 0.0
  else if exp < 0 then Float.ofScientific mant true exp.natAbs
  else Float.ofScientific mant false exp.toNat

/-- An exponent mark with its sign and digits; `none` if it is malformed. -/
def exponent? : List Char → Option (Int × List Char)
  | c :: rest =>
    if c = 'e' ∨ c = 'E' then
      let (negative, rest) := match rest with
        | '-' :: r => (true, r)
        | '+' :: r => (false, r)
        | r => (false, r)
      let (ds, rest) := spanDigits rest
      if ds.isEmpty then none
      else
        let n := natOfDigits 0 ds
        some (if negative then -(n : Int) else n, rest)
    else some (0, c :: rest)
  | [] => some (0, [])

/-- Digits, point and exponent, up to the end of the text. -/
def unsigned? (cs : List Char) : Option Float :=
  let (intDigits, rest) := spanDigits cs
  let (fracDigits, rest) := match rest with
    | '.' :: r => spanDigits r
    | r => ([], r)
  if intDigits.isEmpty ∧ fracDigits.isEmpty then none
  else
    match exponent? rest with
    | some (e, []) =>
      some (ofDecimal (natOfDigits 0 (intDigits ++ fracDigits)) (e - fracDigits.length))
    | _ => none

/-- The words for numbers that no digits can write. -/
def word? (cs : List Char) : Option Float :=
  let lower := cs.map Char.toLower
  if lower = "inf".toList ∨ lower = "infinity".toList then some (1.0 / 0.0)
  else if lower = "nan".toList then some (0.0 / 0.0)
  else none

def ofText? (s : String) : Option Float :=
  match s.toList with
  | '-' :: cs => ((unsigned? cs).or (word? cs)).map Float.neg
  | '+' :: cs => (unsigned? cs).or (word? cs)
  | cs => (unsigned? cs).or (word? cs)

end Stepwise.Number
