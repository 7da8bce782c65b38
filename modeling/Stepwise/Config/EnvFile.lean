import Stepwise.Assoc
import Stepwise.Text.Alphanumeric
import Stepwise.Text.Blank

/-!
# Files of environment variables

A file of lines `NAME=VALUE` that are added to the environment. Values may be quoted, and then go on
over the end of the line; names of variables after a dollar sign are replaced by their values.
**What is already in the environment is not changed.** The file counts up to the first line that is
not well formed.
-/

namespace Stepwise.EnvFile

/-! ## Lines -/

inductive Mode where
  | complete
  | escape
  | strong
  | strongEscape
  | weak
  | weakEscape
  | blank
  deriving Repr, DecidableEq

def plainMode (c : Char) : Mode :=
  if c = '\\' then .escape
  else if c = '"' then .weak
  else if c = '\'' then .strong
  else .complete

def Mode.next (mode : Mode) (c : Char) : Mode :=
  match mode with
  | .blank => plainMode c
  | .escape => .complete
  | .complete => if Text.isBlank c && c ≠ '\n' && c ≠ '\r' then .blank else plainMode c
  | .weak => if c = '\\' then .weakEscape else if c = '"' then .complete else .weak
  | .weakEscape => .weak
  | .strong => if c = '\\' then .strongEscape else if c = '\'' then .complete else .strong
  | .strongEscape => .strong

/-- The end of a physical line: a mode, or a comment behind the given text. -/
inductive LineScan where
  | mode (m : Mode)
  | comment (before : List Char)

/-- Scan a physical line. A comment starts at a number sign behind a blank. -/
def scanLine (mode : Mode) (seen : List Char) : List Char → LineScan
  | [] => .mode mode
  | c :: rest =>
    if mode = .blank ∧ c = '#' then .comment seen.reverse
    else scanLine (mode.next c) (c :: seen) rest

/-- The physical lines of a text, each with its line end. -/
def physicalLines (acc : List Char) : List Char → List (List Char)
  | [] => if acc.isEmpty then [] else [acc.reverse]
  | c :: rest =>
    if c = '\n' then (c :: acc).reverse :: physicalLines [] rest else physicalLines (c :: acc) rest

def dropLineEnd (cs : List Char) : List Char :=
  match cs.reverse with
  | '\n' :: '\r' :: rest => rest.reverse
  | '\n' :: rest => rest.reverse
  | _ => cs

/-- Put physical lines together to lines; none stands for a text that ends inside of a line.
`before` is the beginning of the line. -/
def joinLines (mode : Mode) (before : List Char) : List (List Char) → List (Option (List Char))
  | [] => if mode = .complete then [] else [none]
  | l :: rest =>
    let whole := before ++ l
    if (whole.dropWhile Text.isBlank).head? = some '#' then some [] :: joinLines .complete [] rest
    else
      match scanLine mode [] l with
      | .comment seen => some (before ++ seen) :: joinLines .complete [] rest
      | .mode .complete => some (dropLineEnd whole) :: joinLines .complete [] rest
      | .mode m => joinLines m whole rest

/-! ## Values -/

inductive Substitution where
  | none
  | plain
  | braced
  deriving Repr, DecidableEq

structure ValueScan where
  strong : Bool
  weak : Bool
  escaped : Bool
  /-- Only blanks and a comment may follow. -/
  ending : Bool
  substitution : Substitution
  /-- The name of the variable so far, the last character first. -/
  name : List Char
  /-- The value so far, the last character first. -/
  output : List Char

namespace ValueScan

def start : ValueScan := ⟨false, false, false, false, .none, [], []⟩

def push (s : ValueScan) (c : Char) : ValueScan := { s with output := c :: s.output }

/-- Put in the value of the variable whose name was read. -/
def substitute (lookup : String → String) (s : ValueScan) : ValueScan :=
  let value := lookup (String.ofList s.name.reverse)
  { s with name := [], output := value.toList.reverse ++ s.output }

/-- One character of a value that is not behind its end. -/
def next (lookup : String → String) (s : ValueScan) (c : Char) : Option ValueScan :=
  if s.escaped then
    if c = '\\' ∨ c = '\'' ∨ c = '"' ∨ c = '$' ∨ c = ' ' then
      some { s.push c with escaped := false }
    else if c = 'n' then some { s.push '\n' with escaped := false }
    else none
  else if s.strong then
    some (if c = '\'' then { s with strong := false } else s.push c)
  else
    match s.substitution with
    | .plain =>
      if Text.isAlphanumeric c then some { s with name := c :: s.name }
      else if c = '\x7b' && s.name.isEmpty then some { s with substitution := .braced }
      else
        let s := s.substitute lookup
        if c = '$' then some { s with substitution := .plain }
        else some { s.push c with substitution := .none }
    | .braced =>
      if c = '\x7d' then some { s.substitute lookup with substitution := .none }
      else some { s with name := c :: s.name }
    | .none =>
      if c = '$' then some { s with substitution := .plain }
      else if s.weak then
        some (if c = '"' then { s with weak := false }
          else if c = '\\' then { s with escaped := true }
          else s.push c)
      else if c = '\'' then some { s with strong := true }
      else if c = '"' then some { s with weak := true }
      else if c = '\\' then some { s with escaped := true }
      else if c = ' ' ∨ c = '\t' then some { s with ending := true }
      else some (s.push c)

def finish (lookup : String → String) (s : ValueScan) : Option String :=
  if s.substitution = .braced || s.strong || s.weak then none
  else some (String.ofList (s.substitute lookup).output.reverse)

/-- Read a value up to the end of the line, or up to a comment behind it. -/
def read (lookup : String → String) (s : ValueScan) : List Char → Option String
  | [] => s.finish lookup
  | c :: rest =>
    if s.ending then
      if c = ' ' ∨ c = '\t' then s.read lookup rest
      else if c = '#' then s.finish lookup
      else none
    else
      match s.next lookup c with
      | some s => s.read lookup rest
      | none => none

end ValueScan

/-! ## Pairs -/

def isNameStart (c : Char) : Bool := c.isAlpha || c = '_'

def isNamePart (c : Char) : Bool := c.isAlphanum || c = '_' || c = '.'

def skipBlanks (cs : List Char) : List Char := cs.dropWhile Text.isBlank

def name : List Char → Option (String × List Char)
  | c :: rest =>
    if isNameStart c then
      some (String.ofList (c :: rest.takeWhile isNamePart), rest.dropWhile isNamePart)
    else none
  | [] => none

def equals : List Char → Option (List Char)
  | '=' :: rest => some rest
  | _ => none

/-- The name of a line and what follows the equals sign. The word `export` may stand in front. -/
def nameAndRest (cs : List Char) : Option (String × List Char) := do
  let (key, rest) ← name cs
  let rest := skipBlanks rest
  if key = "export" then
    match equals rest with
    | some rest => return (key, rest)
    | none =>
      let (key, rest) ← name rest
      return (key, ← equals (skipBlanks rest))
  else
    return (key, ← equals rest)

/-- What a line says: a pair, or nothing. The outer option is none if it is not well formed. -/
def pair (lookup : String → String) (cs : List Char) : Option (Option (String × String)) := do
  let trimmed := (cs.reverse.dropWhile Text.isBlank).reverse
  match skipBlanks trimmed with
  | [] => return none
  | '#' :: _ => return none
  | cs =>
    let (key, rest) ← nameAndRest cs
    match skipBlanks rest with
    | [] => return some (key, "")
    | '#' :: _ => return some (key, "")
    | rest => return some (key, ← ValueScan.start.read lookup rest)

/-! ## Files -/

/-- The environment with the lines added. `seen` are the values of earlier lines, which count where
the environment has none. -/
def addLines (env seen : Assoc String) : List (Option (List Char)) → Assoc String
  | [] => env
  | none :: _ => env
  | some cs :: rest =>
    let lookup (key : String) : String :=
      ((Assoc.get? key env).or (Assoc.get? key seen)).getD ""
    match pair lookup cs with
    | none => env
    | some none => addLines env seen rest
    | some (some (key, v)) =>
      let env := if Assoc.contains key env then env else Assoc.put key v env
      addLines env (Assoc.put key v seen) rest

def load (text : String) (env : Assoc String) : Assoc String :=
  let cs := match text.toList with
    | c :: rest => if c.toNat = 0xfeff then rest else c :: rest
    | [] => []
  addLines env [] (joinLines .complete [] (physicalLines [] cs))

end Stepwise.EnvFile
