/-!
# The small parts of TOML

Blanks, comments, strings and keys. A scanner takes what is left of the text, and gives what it read
with what is left then, or nothing if the text does not go on as it should.
-/

namespace Stepwise.Toml

abbrev Scan (α : Type) := List Char → Option (α × List Char)

def isBlank (c : Char) : Bool := c = ' ' || c = '\t'

/-- Characters that are not ASCII may stand in comments and strings. -/
def isWide (c : Char) : Bool := 0x80 ≤ c.toNat

/-- What may stand on a line of text: no control characters but the tab. -/
def isPlain (c : Char) : Bool := c = '\t' || (0x20 ≤ c.toNat && c.toNat ≤ 0x7e) || isWide c

def isBareKey (c : Char) : Bool := c.isAlphanum || c = '_' || c = '-'

def skipBlanks (cs : List Char) : List Char := cs.dropWhile isBlank

/-- What follows the end of a line. -/
def newline? : List Char → Option (List Char)
  | '\n' :: rest => some rest
  | '\r' :: '\n' :: rest => some rest
  | _ => none

def skipComment : List Char → List Char
  | '#' :: rest => rest.dropWhile isPlain
  | cs => cs

/-- Blanks, then maybe a comment, then the end of the line or of the text. -/
def lineEnd? (cs : List Char) : Option (List Char) :=
  match skipComment (skipBlanks cs) with
  | [] => some []
  | rest => newline? rest

/-- Blanks and ends of lines. -/
def skipGaps (fuel : Nat) (cs : List Char) : List Char :=
  match fuel with
  | 0 => cs
  | fuel + 1 =>
    match newline? (skipBlanks cs) with
    | some rest => skipGaps fuel rest
    | none => skipBlanks cs

/-- Blanks, ends of lines and comments. -/
def skipTrivia (fuel : Nat) (cs : List Char) : List Char :=
  match fuel with
  | 0 => cs
  | fuel + 1 =>
    match skipBlanks cs with
    | '#' :: rest => skipTrivia fuel (rest.dropWhile isPlain)
    | cs =>
      match newline? cs with
      | some rest => skipTrivia fuel rest
      | none => cs

/-! ## Strings -/

def hexValue? (c : Char) : Option Nat :=
  if c.isDigit then some (c.toNat - '0'.toNat)
  else if 'a' ≤ c ∧ c ≤ 'f' then some (c.toNat - 'a'.toNat + 10)
  else if 'A' ≤ c ∧ c ≤ 'F' then some (c.toNat - 'A'.toNat + 10)
  else none

/-- The character with a code of `count` hexadecimal digits. -/
def codePoint (count : Nat) : Scan Char := fun cs => do
  let digits := cs.take count
  guard (digits.length = count)
  let n ← digits.foldlM (fun n c => (hexValue? c).map fun d => 16 * n + d) 0
  guard n.isValidChar
  return (Char.ofNat n, cs.drop count)

/-- What an escape stands for, behind its backslash. -/
def escape : Scan Char
  | 'b' :: rest => some ('\x08', rest)
  | 't' :: rest => some ('\t', rest)
  | 'n' :: rest => some ('\n', rest)
  | 'f' :: rest => some ('\x0c', rest)
  | 'r' :: rest => some ('\r', rest)
  | '"' :: rest => some ('"', rest)
  | '\\' :: rest => some ('\\', rest)
  | 'u' :: rest => codePoint 4 rest
  | 'U' :: rest => codePoint 8 rest
  | _ => none

/-- The inside of a string with escapes up to its closing quote; `acc` is what was read, the last
character first. -/
def basicBody (fuel : Nat) (acc : List Char) : Scan String := fun cs =>
  match fuel with
  | 0 => none
  | fuel + 1 =>
    match cs with
    | '"' :: rest => some (String.ofList acc.reverse, rest)
    | '\\' :: rest => do
      let (c, rest) ← escape rest
      basicBody fuel (c :: acc) rest
    | c :: rest => if isPlain c then basicBody fuel (c :: acc) rest else none
    | [] => none

/-- How many quotes close a string of several lines, if any do here. Up to two more belong to the
string. -/
def closingQuotes (quote : Char) (cs : List Char) : Option Nat :=
  let count := (cs.takeWhile (· = quote)).length
  if count < 3 then none else some (min count 5)

/-- The inside of a string of several lines with escapes. A backslash at the end of a line leaves
out all blanks and line ends up to the next character. -/
def basicLines (fuel : Nat) (acc : List Char) : Scan String := fun cs =>
  match fuel with
  | 0 => none
  | fuel + 1 =>
    match closingQuotes '"' cs with
    | some count =>
      some (String.ofList (acc.reverse ++ List.replicate (count - 3) '"'), cs.drop count)
    | none =>
      match cs with
      | '\\' :: rest =>
        match newline? (skipBlanks rest) with
        | some rest => basicLines fuel acc (skipGaps rest.length rest)
        | none => do
          let (c, rest) ← escape rest
          basicLines fuel (c :: acc) rest
      | c :: rest =>
        if isPlain c then basicLines fuel (c :: acc) rest
        else do
          let rest ← newline? (c :: rest)
          basicLines fuel ('\n' :: acc) rest
      | [] => none

def literalBody (acc : List Char) : Scan String
  | [] => none
  | c :: rest =>
    if c = '\'' then some (String.ofList acc.reverse, rest)
    else if isPlain c then literalBody (c :: acc) rest
    else none

def literalLines (fuel : Nat) (acc : List Char) : Scan String := fun cs =>
  match fuel with
  | 0 => none
  | fuel + 1 =>
    match closingQuotes '\'' cs with
    | some count =>
      some (String.ofList (acc.reverse ++ List.replicate (count - 3) '\''), cs.drop count)
    | none =>
      match cs with
      | c :: rest =>
        if isPlain c then literalLines fuel (c :: acc) rest
        else do
          let rest ← newline? (c :: rest)
          literalLines fuel ('\n' :: acc) rest
      | [] => none

/-- The start of a string of several lines: a line end right behind the quotes does not count. -/
def firstLine (cs : List Char) : List Char := (newline? cs).getD cs

def lineString : Scan String
  | '"' :: rest => basicBody (rest.length + 1) [] rest
  | '\'' :: rest => literalBody [] rest
  | _ => none

def string : Scan String
  | '"' :: '"' :: '"' :: rest => basicLines (rest.length + 1) [] (firstLine rest)
  | '\'' :: '\'' :: '\'' :: rest => literalLines (rest.length + 1) [] (firstLine rest)
  | cs => lineString cs

/-! ## Keys -/

/-- One part of a key, bare or quoted. -/
def simpleKey : Scan String := fun cs =>
  match cs with
  | '"' :: _ => lineString cs
  | '\'' :: _ => lineString cs
  | _ =>
    let bare := cs.takeWhile isBareKey
    if bare.isEmpty then none else some (String.ofList bare, cs.dropWhile isBareKey)

/-- The parts of a key, divided by points, with blanks around each. -/
def keyParts (fuel : Nat) : Scan (List String) := fun cs =>
  match fuel with
  | 0 => none
  | fuel + 1 => do
    let (part, rest) ← simpleKey (skipBlanks cs)
    match skipBlanks rest with
    | '.' :: rest =>
      let (parts, rest) ← keyParts fuel rest
      return (part :: parts, rest)
    | rest => return ([part], rest)

/-- How deep keys and values may nest. -/
def maxDepth : Nat := 80

def key : Scan (List String) := keyParts maxDepth

end Stepwise.Toml
