import Stepwise.Json.Number

/-!
# Reading JSON text

A reader by recursive descent. Arrays and objects may nest 127 deep. Every failure names its cause
and place; a failure that was seen before its character was consumed points at that character.
-/

namespace Stepwise.Json

def isSpace (c : Char) : Bool := c = ' ' || c = '\n' || c = '\t' || c = '\r'

def skipSpace (cur : Cursor) : Cursor := cur.skipWhile isSpace

/-- The rest of one of the words `true`, `false` and `null`. -/
def ident (value : Json) : List Char → Cursor → Except ParseError (Json × Cursor)
  | [], cur => .ok (value, cur)
  | c :: rest, cur =>
    match cur.next? with
    | none => cur.fail .eofValue
    | some (d, behind) => if d = c then ident value rest behind else cur.failNext .expectedIdent

/-! ## Strings -/

def hexValue? (c : Char) : Option Nat :=
  if c.isDigit then some (c.toNat - '0'.toNat)
  else if 'a' ≤ c ∧ c ≤ 'f' then some (c.toNat - 'a'.toNat + 10)
  else if 'A' ≤ c ∧ c ≤ 'F' then some (c.toNat - 'A'.toNat + 10)
  else none

def byteLength (cs : List Char) : Nat := cs.foldl (fun n c => n + c.utf8Size) 0

/-- Four hexadecimal digits. The text must have four more bytes, whatever they are. -/
def hex4 (cur : Cursor) : Except ParseError (Nat × Cursor) :=
  match cur.rest with
  | a :: b :: c :: d :: _ =>
    match hexValue? a, hexValue? b, hexValue? c, hexValue? d with
    | some a, some b, some c, some d =>
      .ok (((a * 16 + b) * 16 + c) * 16 + d, cur.skip.skip.skip.skip)
    | _, _, _, _ => .error ⟨.invalidEscape, cur.place.afterBytes 4 cur.rest⟩
  | short =>
    if 4 ≤ byteLength short then .error ⟨.invalidEscape, cur.place.afterBytes 4 cur.rest⟩
    else .error ⟨.eofString, cur.endPlace⟩

/-- The next character of a surrogate pair must be this one. -/
def expectInPair (expected : Char) (cur : Cursor) : Except ParseError Cursor :=
  match cur.next? with
  | none => cur.fail .eofString
  | some (c, behind) => if c = expected then .ok behind else cur.failNext .unfinishedSurrogate

/-- The digits of a `\u` escape. A leading surrogate must be followed by the escape of a trailing
one; the two make one character. -/
def unicodeEscape (cur : Cursor) : Except ParseError (Char × Cursor) := do
  let (n, cur) ← hex4 cur
  if 0xDC00 ≤ n ∧ n ≤ 0xDFFF then cur.fail .loneSurrogate
  else if 0xD800 ≤ n ∧ n ≤ 0xDBFF then do
    let cur ← expectInPair '\\' cur
    let cur ← expectInPair 'u' cur
    let (m, cur) ← hex4 cur
    if 0xDC00 ≤ m ∧ m ≤ 0xDFFF then
      return (Char.ofNat ((n - 0xD800) * 1024 + (m - 0xDC00) + 0x10000), cur)
    else cur.fail .loneSurrogate
  else return (Char.ofNat n, cur)

def escape (cur : Cursor) : Except ParseError (Char × Cursor) :=
  match cur.next? with
  | none => cur.fail .eofString
  | some (c, behind) =>
    if c = '"' ∨ c = '\\' ∨ c = '/' then .ok (c, behind)
    else if c = 'b' then .ok (Char.ofNat 8, behind)
    else if c = 'f' then .ok (Char.ofNat 12, behind)
    else if c = 'n' then .ok ('\n', behind)
    else if c = 'r' then .ok ('\r', behind)
    else if c = 't' then .ok ('\t', behind)
    else if c = 'u' then unicodeEscape behind
    else cur.failNext .invalidEscape

/-- A string from behind its opening quote; `acc` holds the characters read, last first. Every round
consumes a character, so the length of the text is fuel enough. -/
def stringBody (fuel : Nat) (acc : List Char) (cur : Cursor) :
    Except ParseError (String × Cursor) :=
  match fuel with
  | 0 => cur.fail .eofString
  | fuel + 1 =>
    match cur.next? with
    | none => cur.fail .eofString
    | some (c, behind) =>
      if c = '"' then .ok (String.ofList acc.reverse, behind)
      else if c = '\\' then
        match escape behind with
        | .ok (d, behind) => stringBody fuel (d :: acc) behind
        | .error e => .error e
      else if c.toNat < 0x20 then .error ⟨.controlInString, behind.place⟩
      else stringBody fuel (c :: acc) behind

def string (cur : Cursor) : Except ParseError (String × Cursor) :=
  stringBody (cur.rest.length + 1) [] cur

/-! ## Values -/

def maxDepth : Nat := 127

section

variable (build : List (String × Json) → Json)

mutual

/-- A value, blanks in front of it skipped. `depth` counts the open arrays and objects, and `build`
makes an object of its members as written. -/
def value (fuel depth : Nat) (cur : Cursor) : Except ParseError (Json × Cursor) :=
  match fuel with
  | 0 => cur.fail .tooDeep
  | fuel + 1 =>
    let cur := skipSpace cur
    match cur.next? with
    | none => cur.fail .eofValue
    | some (c, behind) =>
      if c = 'n' then ident .null "ull".toList behind
      else if c = 't' then ident (.bool true) "rue".toList behind
      else if c = 'f' then ident (.bool false) "alse".toList behind
      else if c = '-' then number true behind
      else if c.isDigit then number false cur
      else if c = '"' then
        match string behind with
        | .ok (s, behind) => .ok (.str s, behind)
        | .error e => .error e
      else if c = '[' then
        if maxDepth ≤ depth then cur.failNext .tooDeep else items fuel (depth + 1) true [] behind
      else if c = '\x7b' then
        if maxDepth ≤ depth then cur.failNext .tooDeep
        else members fuel (depth + 1) true [] behind
      else cur.failNext .expectedValue

/-- The items of an array up to its bracket; `acc` holds those read, last first. -/
def items (fuel depth : Nat) (first : Bool) (acc : List Json) (cur : Cursor) :
    Except ParseError (Json × Cursor) :=
  match fuel with
  | 0 => cur.fail .tooDeep
  | fuel + 1 =>
    let cur := skipSpace cur
    let item (cur : Cursor) : Except ParseError (Json × Cursor) :=
      match value fuel depth cur with
      | .ok (j, cur) => items fuel depth false (j :: acc) cur
      | .error e => .error e
    match cur.next? with
    | none => cur.fail .eofList
    | some (c, behind) =>
      if c = ']' then .ok (.array acc.reverse, behind)
      else if first then item cur
      else if c = ',' then
        let cur := skipSpace behind
        match cur.peek? with
        -- behind a comma it is a value that is missing
        | none => cur.fail .eofValue
        | some d => if d = ']' then cur.failNext .trailingComma else item cur
      else cur.failNext .expectedCommaOrBracket

/-- The members of an object up to its brace; `acc` holds those read, last first. -/
def members (fuel depth : Nat) (first : Bool) (acc : List (String × Json)) (cur : Cursor) :
    Except ParseError (Json × Cursor) :=
  match fuel with
  | 0 => cur.fail .tooDeep
  | fuel + 1 =>
    let cur := skipSpace cur
    let member (behind : Cursor) : Except ParseError (Json × Cursor) :=
      match string behind with
      | .error e => .error e
      | .ok (key, cur) =>
        let cur := skipSpace cur
        match cur.next? with
        | none => cur.fail .eofObject
        | some (c, behind) =>
          if c = ':' then
            match value fuel depth behind with
            | .ok (j, cur) => members fuel depth false ((key, j) :: acc) cur
            | .error e => .error e
          else cur.failNext .expectedColon
    match cur.next? with
    | none => cur.fail .eofObject
    | some (c, behind) =>
      if c = '\x7d' then .ok (build acc.reverse, behind)
      else if first then
        if c = '"' then member behind else cur.failNext .keyNotString
      else if c = ',' then
        let cur := skipSpace behind
        match cur.next? with
        | none => cur.fail .eofValue
        | some (d, behind) =>
          if d = '"' then member behind
          else if d = '\x7d' then cur.failNext .trailingComma
          else cur.failNext .keyNotString
      else cur.failNext .expectedCommaOrBrace

end

end

/-- Read a whole text. Every call of the reader consumes a character or is the last of two at one
place, so twice the length of the text is fuel enough. -/
def parseWith (build : List (String × Json) → Json) (s : String) : Except ParseError Json :=
  let cur := Cursor.ofString s
  match value build (2 * cur.rest.length + 2) 0 cur with
  | .error e => .error e
  | .ok (j, cur) =>
    let cur := skipSpace cur
    match cur.peek? with
    | none => .ok j
    | some _ => cur.failNext .trailingCharacters

/-- The tree of a text. Of two members with one key the later wins. -/
def parse (s : String) : Except ParseError Json := parseWith ofMembers s

/-- The tree of a text with the members of every object as they are written: in their order, and
with repeated keys. -/
def parseRaw (s : String) : Except ParseError Json := parseWith .object s

end Stepwise.Json
