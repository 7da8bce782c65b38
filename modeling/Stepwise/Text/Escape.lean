/-!
# Escapes in string literals

A backslash and the character behind it stand for one character. A sequence that stands for none is
kept as it is written and reported, as is a backslash at the very end.
-/

namespace Stepwise.Text

/-- A decoded literal, with the sequences that were not recognised, in order. -/
structure Decoded where
  text : List Char
  unknown : List (List Char)
  deriving Repr, DecidableEq

namespace Decoded

def push (c : Char) (d : Decoded) : Decoded := ⟨c :: d.text, d.unknown⟩

/-- Put a sequence in front that was not recognised. -/
def reject (sequence : List Char) (d : Decoded) : Decoded :=
  ⟨sequence ++ d.text, sequence :: d.unknown⟩

end Decoded

/-- The character that a backslash followed by this one stands for. -/
def escape? (c : Char) : Option Char :=
  if c = 'n' then some '\n'
  else if c = 't' then some '\t'
  else if c = 'r' then some '\r'
  else if c = '0' then some (Char.ofNat 0)
  else if c = '\\' then some '\\'
  else if c = '"' then some '"'
  else if c = '\'' then some '\''
  else none

/-- Decode from left to right. -/
def decode : List Char → Decoded
  | [] => ⟨[], []⟩
  | [c] => if c = '\\' then Decoded.reject ['\\'] ⟨[], []⟩ else ⟨[c], []⟩
  | c :: d :: rest =>
    if c = '\\' then
      match escape? d with
      | some e => (decode rest).push e
      | none => (decode rest).reject [c, d]
    else (decode (d :: rest)).push c

/-- The decoded text of a literal, and the sequences that were not recognised. -/
def decodeEscapes (raw : String) : String × List String :=
  let d := decode raw.toList
  (String.ofList d.text, d.unknown.map String.ofList)

end Stepwise.Text
