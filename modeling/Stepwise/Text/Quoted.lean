import Stepwise.Text.Case
import Stepwise.Text.Visible

/-!
# Quoted text

How messages show a text unambiguously: in double quotes, with the quote and the backslash escaped,
the usual letters for tab, newline, carriage return and NUL, and a number in braces for every other
character that would not be seen on its own.
-/

namespace Stepwise.Text

def isInvisible (c : Char) : Bool := inRanges invisibleRanges c

def isExtending (c : Char) : Bool := inRanges extendingRanges c

/-- A code point in lower-case hexadecimal, in braces after `\u`. -/
def codePoint (c : Char) : String :=
  "\\u\x7b" ++ String.ofList (Nat.toDigits 16 c.toNat) ++ "\x7d"

def quotedChar (c : Char) : String :=
  if c.toNat = 0 then "\\0"
  else if c = '\t' then "\\t"
  else if c = '\r' then "\\r"
  else if c = '\n' then "\\n"
  else if c = '\\' then "\\\\"
  else if c = '"' then "\\\""
  else if isExtending c || isInvisible c then codePoint c
  else c.toString

def quoted (s : String) : String :=
  "\"" ++ String.join (s.toList.map quotedChar) ++ "\""

end Stepwise.Text
