import Stepwise.Json.Basic
import Stepwise.Json.Error
import Stepwise.Number.Reader

/-!
# Numbers in JSON text

Digits are collected into a word of 64 bits; those that no longer fit are only counted, in front of
the point, or dropped, behind it. A number without point and exponent that fits is whole. Any other
is **the word as a double, multiplied or divided once by a power of ten**: for words up to `2 ^ 53`
and small powers that is the nearest double, and beyond that it can be off by a last place.
-/

namespace Stepwise.Json

def maxWord : Nat := 0xffffffffffffffff

def maxExponent : Nat := 0x7fffffff

/-- Append digits to a word while it fits. Returns the word and the digits that were left over. -/
def absorb (word : Nat) : List Char → Nat × List Char
  | [] => (word, [])
  | d :: rest =>
    let next := 10 * word + Number.digitValue d
    if maxWord < next then (word, d :: rest) else absorb next rest

/-- `10 ^ n` as a double, for `n` up to 308. -/
def powerOfTen (n : Nat) : Float := Float.ofScientific 1 false n

/-- `x · 10 ^ exp`, or nothing if that is infinite. An exponent below the range of doubles is
applied in steps of 308; `steps` of them bring any word down to zero. -/
def scale? (steps : Nat) (x : Float) (exp : Int) : Option Float :=
  if exp.natAbs ≤ 308 then
    if 0 ≤ exp then
      let y := x * powerOfTen exp.natAbs
      if y.isInf then none else some y
    else some (x / powerOfTen exp.natAbs)
  else if x == 0.0 then some x
  else if 0 ≤ exp then none
  else
    match steps with
    | 0 => some x
    | steps + 1 => scale? steps (x / powerOfTen 308) (exp + 308)

/-- Keep an exponent within 32 bits. -/
def clampExponent (exp : Int) : Int := max (-0x80000000) (min 0x7fffffff exp)

/-- The double for a word and a power of ten, with its sign. -/
def ofParts (negative : Bool) (word : Nat) (exp : Int) (cur : Cursor) :
    Except ParseError (Json × Cursor) :=
  match scale? 8 word.toUInt64.toFloat (clampExponent exp) with
  | some x => .ok (.float (if negative then -x else x), cur)
  | none => cur.fail .numberOutOfRange

def digits (cur : Cursor) : List Char × Cursor :=
  (cur.rest.takeWhile Char.isDigit, cur.skipWhile Char.isDigit)

/-- The value of exponent digits, continued from `acc`; `none`, with the cursor behind the digit at
fault, if it grows too large. -/
def exponentDigits (acc : Nat) (cur : Cursor) : List Char → Option Nat × Cursor
  | [] => (some acc, cur)
  | d :: rest =>
    let next := 10 * acc + Number.digitValue d
    if maxExponent < next then (none, cur.skip) else exponentDigits next cur.skip rest

/-- The exponent, from its sign on. -/
def exponentPart (negative : Bool) (word : Nat) (start : Int) (cur : Cursor) :
    Except ParseError (Json × Cursor) :=
  let (down, cur) := match cur.peek? with
    | some '-' => (true, cur.skip)
    | some '+' => (false, cur.skip)
    | _ => (false, cur)
  match cur.peek? with
  | none => cur.fail .eofValue
  | some c =>
    if c.isDigit then
      match exponentDigits 0 cur (digits cur).1 with
      | (some e, cur) => ofParts negative word (if down then start - e else start + e) cur
      | (none, cur) =>
        -- an exponent that is too large for its word: zero stays zero, and what is tiny becomes
        -- zero
        if word ≠ 0 ∧ !down then cur.fail .numberOutOfRange
        else .ok (.float (if negative then -0.0 else 0.0), (digits cur).2)
    else cur.failNext .invalidNumber

/-- The end of a number with point or exponent: an exponent, or nothing. -/
def afterDigits (negative : Bool) (word : Nat) (exp : Int) (cur : Cursor) :
    Except ParseError (Json × Cursor) :=
  match cur.peek? with
  | some 'e' | some 'E' => exponentPart negative word exp cur.skip
  | _ => ofParts negative word exp cur

/-- The digits behind the point, and what follows. -/
def fractionPart (negative : Bool) (word : Nat) (exp : Int) (cur : Cursor) :
    Except ParseError (Json × Cursor) :=
  let (ds, behind) := digits cur
  if ds.isEmpty then
    match cur.peek? with
    | some _ => cur.failNext .invalidNumber
    | none => cur.fail .eofValue
  else
    let (word, left) := absorb word ds
    -- only the digits that the word took move the point
    afterDigits negative word (exp - (ds.length - left.length : Nat)) behind

/-- A whole number that fits a word. Negative ones reach down to `-2 ^ 63`; a negative zero and what
lies below are doubles. -/
def wholeNumber (negative : Bool) (word : Nat) : Json :=
  if negative then
    if word = 0 ∨ 0x8000000000000000 < word then .float (-word.toUInt64.toFloat)
    else .int (-(word : Int))
  else .int word

def number (negative : Bool) (cur : Cursor) : Except ParseError (Json × Cursor) :=
  match cur.next? with
  | none => cur.fail .eofValue
  | some (c, behind) =>
    if c = '0' then
      match behind.peek? with
      | some '.' => fractionPart negative 0 0 behind.skip
      | some 'e' | some 'E' => exponentPart negative 0 0 behind.skip
      | some d =>
        if d.isDigit then behind.failNext .invalidNumber else .ok (wholeNumber negative 0, behind)
      | none => .ok (wholeNumber negative 0, behind)
    else if c.isDigit then
      let (ds, behind) := digits cur
      let (word, left) := absorb 0 ds
      match behind.peek? with
      | some '.' => fractionPart negative word left.length behind.skip
      | some 'e' | some 'E' => exponentPart negative word left.length behind.skip
      | _ =>
        if left.isEmpty then .ok (wholeNumber negative word, behind)
        -- each digit that was left over counts as a power of ten
        else ofParts negative word left.length behind
    else cur.failNext .invalidNumber

end Stepwise.Json
