import Stepwise.Json.Basic
import Stepwise.Number.Layout

/-!
# JSON text

Compact text: no blanks, members in the order of the tree. Inside a string only the quote, the
backslash and the controls are escaped.
-/

namespace Stepwise.Json

/-- Doubles keep a point where they are whole; exponents from `-5` to `15` are written positionally,
and a tie goes to the even digit. -/
def numberFormat : NumberFormat := ⟨.toEven, some (-5, 16), ".0"⟩

/-- The text of a double; one that is not finite has no number and is written as `null`. -/
def floatText (x : Float) : String :=
  (Number.finiteText? numberFormat x).getD "null"

def hexDigit (n : Nat) : Char :=
  if n < 10 then Char.ofNat ('0'.toNat + n) else Char.ofNat ('a'.toNat + (n - 10))

def escaped (c : Char) : List Char :=
  if c = '"' then ['\\', '"']
  else if c = '\\' then ['\\', '\\']
  else if c = Char.ofNat 8 then ['\\', 'b']
  else if c = Char.ofNat 12 then ['\\', 'f']
  else if c = '\n' then ['\\', 'n']
  else if c = '\r' then ['\\', 'r']
  else if c = '\t' then ['\\', 't']
  else if c.toNat < 0x20 then
    ['\\', 'u', '0', '0', hexDigit (c.toNat / 16), hexDigit (c.toNat % 16)]
  else [c]

def stringChars (s : String) : List Char :=
  '"' :: (s.toList.flatMap escaped ++ ['"'])

mutual

/-- The characters of the text of a tree. -/
def chars : Json → List Char
  | .null => "null".toList
  | .bool b => (if b then "true" else "false").toList
  | .int n => (toString n).toList
  | .float x => (floatText x).toList
  | .str s => stringChars s
  | .array items => '[' :: itemChars items
  | .object members => '\x7b' :: memberChars members

/-- Items, separated, and the closing bracket. -/
def itemChars : List Json → List Char
  | [] => [']']
  | [j] => chars j ++ [']']
  | j :: rest => chars j ++ ',' :: itemChars rest

def memberChars : List (String × Json) → List Char
  | [] => ['\x7d']
  | [(key, j)] => stringChars key ++ ':' :: (chars j ++ ['\x7d'])
  | (key, j) :: rest => stringChars key ++ ':' :: (chars j ++ ',' :: memberChars rest)

end

def render (j : Json) : String :=
  String.ofList (chars j)

end Stepwise.Json
