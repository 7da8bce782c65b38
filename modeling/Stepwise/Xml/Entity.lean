/-!
# Entities in XML text

An ampersand starts an entity, which ends at the next semicolon: one of the five predefined names,
or the number of a character. Text with anything else behind an ampersand cannot be read at all.
-/

namespace Stepwise.Xml

def namedEntity? (name : List Char) : Option Char :=
  if name = "lt".toList then some '<'
  else if name = "gt".toList then some '>'
  else if name = "amp".toList then some '&'
  else if name = "apos".toList then some '\''
  else if name = "quot".toList then some '"'
  else none

/-- The value of a digit in a base up to sixteen. -/
def digit? (base : Nat) (c : Char) : Option Nat :=
  let n :=
    if c.isDigit then c.toNat - '0'.toNat
    else if 'a' ≤ c ∧ c ≤ 'f' then c.toNat - 'a'.toNat + 10
    else if 'A' ≤ c ∧ c ≤ 'F' then c.toNat - 'A'.toNat + 10
    else base
  if n < base then some n else none

/-- At most `width` digits as a number; no digits are zero. -/
def code? (base width : Nat) (digits : List Char) : Option Nat :=
  if width < digits.length then none
  else digits.foldlM (fun n c => (digit? base c).map fun d => n * base + d) 0

/-- The character with this code point, which must not be NUL. -/
def charOfCode? (n : Nat) : Option Char :=
  if n ≠ 0 ∧ n.isValidChar then some (Char.ofNat n) else none

/-- A numeric entity, from behind its `#`: decimal, or hexadecimal behind an `x`. -/
def numericEntity? (digits : List Char) : Option Char :=
  match digits with
  | 'x' :: hex => (code? 16 6 hex).bind charOfCode?
  | _ => (code? 10 7 digits).bind charOfCode?

/-- An entity, between its ampersand and its semicolon. -/
def entity? (name : List Char) : Option Char :=
  match name with
  | '#' :: digits => numericEntity? digits
  | _ => namedEntity? name

/-- Replace the entities of a text. `pending` is the part of an entity read so far, last character
first, if one is open. -/
def unescapeFrom (pending : Option (List Char)) : List Char → Option (List Char)
  | [] => if pending.isSome then none else some []
  | c :: rest =>
    match pending with
    | none =>
      if c = '&' then unescapeFrom (some []) rest else (unescapeFrom none rest).map (c :: ·)
    | some name =>
      if c = '&' then none
      else if c = ';' then do
        let d ← entity? name.reverse
        let more ← unescapeFrom none rest
        return d :: more
      else unescapeFrom (some (c :: name)) rest

/-- A text with its entities replaced, if all of them can be read. -/
def unescape? (raw : List Char) : Option (List Char) :=
  unescapeFrom none raw

end Stepwise.Xml
