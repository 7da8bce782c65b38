import Stepwise.Builtin.Basic
import Stepwise.Text.Blank
import Stepwise.Text.Case
import Stepwise.Text.Split

/-!
# Built-ins on text
-/

namespace Stepwise.Builtin

def onText (b : Builtin) (f : String → String) (args : List Value) : Except Fault Value :=
  b.one args fun a => return .str (f (← b.text a))

/-- The parts of a text between the occurrences of a separator. -/
def splitText (args : List Value) : Except Fault Value :=
  two .split args fun a c => do
    let t ← text .split a
    let sep ← text .split c
    return .array ((Text.split t sep).map .str)

def replaceText (args : List Value) : Except Fault Value :=
  three .replace args fun a c d => do
    let t ← text .replace a
    let old ← text .replace c
    let new ← text .replace d
    return .str (Text.replace t old new)

/-- The texts of the items of an array, with a separator between them. -/
def joinTexts (args : List Value) : Except Fault Value :=
  two .join args fun a c => do
    let sep ← text .join c
    match a with
    | .array items => return .str (Text.join (items.map Value.text) sep)
    | v => .error (mismatch .join "an array" v)

/-- Characters from a start on, and if a length is given only that many. -/
def slice (s : String) (start : Float) (length : Option Float) : String :=
  let rest := s.toList.drop (Number.toCount start)
  String.ofList <|
    match length with
    | some n => rest.take (Number.toCount n)
    | none => rest

def substrText (args : List Value) : Except Fault Value :=
  match args with
  | [a, c] => do
    let s ← text .substr a
    let start ← number .substr c
    return .str (slice s start none)
  | [a, c, d] => do
    let s ← text .substr a
    let start ← number .substr c
    let length ← number .substr d
    return .str (slice s start (some length))
  | _ => .error (wrongCount .substr 2 args.length)

end Stepwise.Builtin
