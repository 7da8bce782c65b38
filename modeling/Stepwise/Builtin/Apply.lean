import Stepwise.Builtin.Collection
import Stepwise.Builtin.Number
import Stepwise.Builtin.Text
import Stepwise.Json.Parser
import Stepwise.Value.Operation

/-!
# Calling a built-in
-/

namespace Stepwise.Builtin

/-- The plain JSON text of a value. -/
def stringify (args : List Value) : Except Fault Value :=
  one .jsonStringify args fun v => .ok (.str v.toJson.render)

def parseJson (args : List Value) : Except Fault Value :=
  one .jsonParse args fun a => do
    let s ← text .jsonParse a
    match Json.parse s with
    | .ok j => return .ofJson j
    | .error e => .error (.typeError (.notJson e))

/-- The time, which the caller reads off the clock. -/
def nowText (clock : String) (args : List Value) : Except Fault Value :=
  match args with
  | [] => .ok (.str clock)
  | _ => .error (wrongCount .now 0 args.length)

/-- The result of a built-in on its arguments, with the text of the current time for `now`. -/
def apply (clock : String) (b : Builtin) (args : List Value) : Except Fault Value :=
  match b with
  | .len => lenOf args
  | .append => appendItem args
  | .keys => keysOf args
  | .contains => containsItem args
  | .join => joinTexts args
  | .split => splitText args
  | .upper => onText .upper Text.upper args
  | .lower => onText .lower Text.lower args
  | .trim => onText .trim Text.trim args
  | .replace => replaceText args
  | .substr => substrText args
  | .str => one .str args fun v => .ok (.str v.text)
  | .int => one .int args Value.castInt
  | .float => one .float args Value.castFloat
  | .now => nowText clock args
  | .jsonParse => parseJson args
  | .jsonStringify => stringify args
  | .abs => onNumber .abs Float.abs args
  | .round => roundNumber args
  | .floor => onNumber .floor Number.floor args
  | .ceil => onNumber .ceil Number.ceil args
  | .min => fold .min Number.min args
  | .max => fold .max Number.max args

end Stepwise.Builtin
