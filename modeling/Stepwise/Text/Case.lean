import Stepwise.Text.Cased
import Stepwise.Text.Letters

/-!
# Upper and lower case

The full case mappings, in which one letter may become several (`ß` becomes `SS`). Case depends on
the surroundings in one place only: the lower case of a capital sigma is the final form where a word
ends, that is where a cased character comes before it and none comes after it, case-ignorable
characters on either side not counted.
-/

namespace Stepwise.Text

def inRanges (ranges : List (Nat × Nat)) (c : Char) : Bool :=
  ranges.any fun r => r.1 ≤ c.toNat && c.toNat ≤ r.2

def isCased (c : Char) : Bool := inRanges casedRanges c

def isCaseIgnorable (c : Char) : Bool := inRanges caseIgnorableRanges c

namespace CaseRun

def covers (r : CaseRun) (n : Nat) : Bool :=
  r.first ≤ n && n ≤ r.last && (n - r.first) % r.step == 0

/-- The letter that the run maps a code point of its own to. -/
def apply (r : CaseRun) (n : Nat) : Char :=
  Char.ofNat (Int.ofNat n + r.shift).toNat

end CaseRun

/-- Look a character up among the special mappings, then among the runs. -/
def mapCase (special : List (Nat × List Nat)) (runs : List CaseRun) (c : Char) : List Char :=
  match special.find? fun entry => entry.1 = c.toNat with
  | some (_, letters) => letters.map Char.ofNat
  | none =>
    match runs.find? fun r => r.covers c.toNat with
    | some r => [r.apply c.toNat]
    | none => [c]

def upperChar (c : Char) : List Char :=
  if c.toNat < 0x80 then [c.toUpper] else mapCase upperSpecial upperRuns c

def lowerChar (c : Char) : List Char :=
  if c.toNat < 0x80 then [c.toLower] else mapCase lowerSpecial lowerRuns c

def upper (s : String) : String :=
  String.ofList (s.toList.flatMap upperChar)

/-- Whether the first character that counts is cased. -/
def startsCased (cs : List Char) : Bool :=
  match cs.dropWhile isCaseIgnorable with
  | c :: _ => isCased c
  | [] => false

def capitalSigma : Char := 'Σ'

/-- Lower case of a text whose preceding characters, nearest first, are `before`. -/
def lowerAfter (before : List Char) : List Char → List Char
  | [] => []
  | c :: rest =>
    let here :=
      if c = capitalSigma then
        [if startsCased before && !startsCased rest then 'ς' else 'σ']
      else lowerChar c
    here ++ lowerAfter (c :: before) rest

def lower (s : String) : String :=
  String.ofList (lowerAfter [] s.toList)

end Stepwise.Text
