import Stepwise.Number.Reader
import Stepwise.Toml.Basic
import Stepwise.Toml.Scan

/-!
# Numbers, dates and times of TOML

Whole numbers have to fit a signed word of 64 bits. An underscore may stand between two digits. A
date or time is checked against the calendar and kept as text in one normal form.
-/

namespace Stepwise.Toml

/-! ## Digits -/

/-- Digits with single underscores between them, the underscores left out. The first digit was read
already. -/
def moreDigits (isDigit : Char → Bool) : List Char → Option (List Char × List Char)
  | '_' :: d :: rest =>
    if isDigit d then (moreDigits isDigit rest).map fun r => (d :: r.1, r.2) else none
  | '_' :: [] => none
  | c :: rest =>
    if isDigit c then (moreDigits isDigit rest).map fun r => (c :: r.1, r.2)
    else some ([], c :: rest)
  | [] => some ([], [])

def digits (isDigit : Char → Bool) : Scan (List Char)
  | c :: rest =>
    if isDigit c then (moreDigits isDigit rest).map fun r => (c :: r.1, r.2) else none
  | [] => none

/-- A sign that may be left out. -/
def sign : List Char → List Char × List Char
  | '-' :: rest => (['-'], rest)
  | '+' :: rest => ([], rest)
  | cs => ([], cs)

/-- The decimal digits of a whole number: no zero in front of others. -/
def wholeDigits : Scan (List Char)
  | '0' :: rest => some (['0'], rest)
  | cs => digits Char.isDigit cs

def inWord (n : Int) : Bool := -0x8000000000000000 ≤ n && n < 0x8000000000000000

def radix (base : Nat) : Scan Toml := fun cs => do
  let isDigit (c : Char) : Bool := (hexValue? c).any (· < base)
  let (ds, rest) ← digits isDigit cs
  let n := ds.foldl (fun n c => base * n + (hexValue? c).getD 0) 0
  guard (inWord n)
  return (.int n, rest)

def integer : Scan Toml
  | '0' :: 'x' :: rest => radix 16 rest
  | '0' :: 'o' :: rest => radix 8 rest
  | '0' :: 'b' :: rest => radix 2 rest
  | cs => do
    let (minus, rest) := sign cs
    let (ds, rest) ← wholeDigits rest
    let n : Int := Number.natOfDigits 0 ds
    let n := if minus.isEmpty then n else -n
    guard (inWord n)
    return (.int n, rest)

/-! ## Doubles -/

def exponent : Scan (List Char)
  | c :: rest => do
    guard (c = 'e' ∨ c = 'E')
    let (minus, rest) := sign rest
    let (ds, rest) ← digits Char.isDigit rest
    return ('e' :: minus ++ ds, rest)
  | [] => none

/-- A point with its digits, and maybe an exponent; or an exponent alone. -/
def fraction : Scan (List Char)
  | '.' :: rest => do
    let (ds, rest) ← digits Char.isDigit rest
    match rest with
    | 'e' :: _ | 'E' :: _ =>
      let (e, rest) ← exponent rest
      return ('.' :: ds ++ e, rest)
    | _ => return ('.' :: ds, rest)
  | cs => exponent cs

/-- A double that is written with a point or an exponent. One that is too large is refused, unless
it is negative. -/
def decimal : Scan Toml := fun cs => do
  let (minus, rest) := sign cs
  let (whole, rest) ← wholeDigits rest
  let (fractional, rest) ← fraction rest
  let x ← Number.ofText? (String.ofList (minus ++ whole ++ fractional))
  guard (x.isFinite ∨ x < 0.0)
  return (.float x, rest)

/-- The words for infinity and for what is no number. -/
def special : Scan Toml := fun cs =>
  let (minus, rest) := sign cs
  let signed (x : Float) : Float := if minus.isEmpty then x else -x
  match rest with
  | 'i' :: 'n' :: 'f' :: rest => some (.float (signed (1.0 / 0.0)), rest)
  | 'n' :: 'a' :: 'n' :: rest => some (.float (signed (0.0 / 0.0)), rest)
  | _ => none

def double : Scan Toml := fun cs => (decimal cs).or (special cs)

/-! ## Dates and times -/

/-- A number of exactly `count` digits between two bounds, with those digits. -/
def field (count lo hi : Nat) : Scan (Nat × List Char) := fun cs => do
  let ds := cs.take count
  guard (ds.length = count ∧ ds.all Char.isDigit)
  let n := Number.natOfDigits 0 ds
  guard (lo ≤ n ∧ n ≤ hi)
  return ((n, ds), cs.drop count)

def expect (c : Char) : Scan Unit
  | d :: rest => if c = d then some ((), rest) else none
  | [] => none

def isLeapYear (y : Nat) : Bool := y % 4 = 0 && (y % 100 ≠ 0 || y % 400 = 0)

def daysIn (year month : Nat) : Nat :=
  if month = 2 then (if isLeapYear year then 29 else 28)
  else if month = 4 ∨ month = 6 ∨ month = 9 ∨ month = 11 then 30
  else 31

def date : Scan (List Char) := fun cs => do
  let ((y, yd), cs) ← field 4 0 9999 cs
  let (_, cs) ← expect '-' cs
  let ((m, md), cs) ← field 2 1 12 cs
  let (_, cs) ← expect '-' cs
  let ((_, dd), cs) ← field 2 1 (daysIn y m) cs
  return (yd ++ '-' :: md ++ '-' :: dd, cs)

/-- Digits of a second: nine of them count, and zeros at the end do not. -/
def secondFraction (ds : List Char) : List Char :=
  let kept := ((ds.take 9).reverse.dropWhile (· = '0')).reverse
  if kept.isEmpty then [] else '.' :: kept

def time : Scan (List Char) := fun cs => do
  let ((_, hd), cs) ← field 2 0 23 cs
  let (_, cs) ← expect ':' cs
  let ((_, md), cs) ← field 2 0 59 cs
  let (_, cs) ← expect ':' cs
  let ((_, sd), cs) ← field 2 0 60 cs
  let clock := hd ++ ':' :: md ++ ':' :: sd
  match cs with
  | '.' :: rest =>
    let ds := rest.takeWhile Char.isDigit
    guard (!ds.isEmpty)
    return (clock ++ secondFraction ds, rest.dropWhile Char.isDigit)
  | _ => return (clock, cs)

/-- The distance from universal time, which may be left out. -/
def offset : Scan (List Char) := fun cs =>
  let shift (c : Char) (rest : List Char) : Option (List Char × List Char) := do
    let ((h, hd), rest) ← field 2 0 23 rest
    let (_, rest) ← expect ':' rest
    let ((m, md), rest) ← field 2 0 59 rest
    let c := if h = 0 ∧ m = 0 then '+' else c
    return (c :: hd ++ ':' :: md, rest)
  match cs with
  | 'Z' :: rest => some (['Z'], rest)
  | 'z' :: rest => some (['Z'], rest)
  | '+' :: rest => shift '+' rest
  | '-' :: rest => shift '-' rest
  | _ => some ([], cs)

/-- The time behind a date, which may be left out. -/
def timeBehindDate : Scan (List Char) := fun cs =>
  match cs with
  | c :: rest =>
    if c = 'T' ∨ c = 't' ∨ c = ' ' then
      match time rest with
      | some (clock, rest) =>
        match offset rest with
        | some (zone, rest) => some ('T' :: clock ++ zone, rest)
        | none => some ('T' :: clock, rest)
      | none => some ([], cs)
    else some ([], cs)
  | [] => some ([], cs)

/-- A date, a time, or both. -/
def moment : Scan Toml := fun cs =>
  match date cs with
  | some (day, rest) => do
    let (clock, rest) ← timeBehindDate rest
    return (.datetime (String.ofList (day ++ clock)), rest)
  | none => do
    let (clock, rest) ← time cs
    return (.datetime (String.ofList clock), rest)

/-- A date or time, a double or a whole number, whichever fits first. -/
def numeric : Scan Toml := fun cs => ((moment cs).or (double cs)).or (integer cs)

end Stepwise.Toml
