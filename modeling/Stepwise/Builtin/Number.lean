import Stepwise.Builtin.Basic

/-!
# Built-ins on numbers
-/

namespace Stepwise.Builtin

def onNumber (b : Builtin) (f : Float → Float) (args : List Value) : Except Fault Value :=
  b.one args fun a => return .num (f (← b.number a))

/-- Round to a number of digits behind the point: scale by a power of ten, round to a whole number
and scale back. -/
def roundTo (x digits : Float) : Float :=
  let factor := Number.pow 10.0 (Number.toInt32 digits)
  Number.round (x * factor) / factor

/-- `round(x)` or `round(x, digits)`; the digits are looked at first. -/
def roundNumber (args : List Value) : Except Fault Value :=
  match args with
  | [a] => return .num (Number.round (← number .round a))
  | [a, c] => do
    let digits ← number .round c
    let x ← number .round a
    return .num (roundTo x digits)
  | _ => .error (wrongCount .round 1 args.length)

/-- Combine numbers from left to right. They are the arguments, or the items of an array that is the
only argument. -/
def fold (b : Builtin) (f : Float → Float → Float) (args : List Value) : Except Fault Value :=
  let items := match args with
    | [.array items] => items
    | _ => args
  match items with
  | [] => .error (b.wrongCount 1 0)
  | first :: rest => do
    let start ← b.number first
    return .num (← rest.foldlM (fun acc v => return f acc (← b.number v)) start)

end Stepwise.Builtin
