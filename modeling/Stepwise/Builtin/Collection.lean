import Stepwise.Builtin.Basic
import Stepwise.Text.Split

/-!
# Built-ins on arrays and structs
-/

namespace Stepwise.Builtin

/-- Characters of a text, items of an array, fields of a struct. -/
def lenOf (args : List Value) : Except Fault Value :=
  one .len args fun
    | .str s => .ok (.num (Float.ofNat s.length))
    | .array items => .ok (.num (Float.ofNat items.length))
    | .struct fields => .ok (.num (Float.ofNat fields.length))
    | v => .error (mismatch .len "a string, array or struct" v)

def appendItem (args : List Value) : Except Fault Value :=
  two .append args fun
    | .array items, item => .ok (.array (items ++ [item]))
    | v, _ => .error (mismatch .append "an array" v)

/-- The names of the fields, in order. -/
def keysOf (args : List Value) : Except Fault Value :=
  one .keys args fun
    | .struct fields => .ok (.array ((Assoc.keys fields).map .str))
    | v => .error (mismatch .keys "a struct" v)

/-- Whether a text has another inside of it, an array an item, or a struct a field. -/
def containsItem (args : List Value) : Except Fault Value :=
  two .contains args fun
    | .str s, needle => .ok (.bool (Text.contains s needle.text))
    | .array items, item => .ok (.bool (items.any fun v => v == item))
    | .struct fields, key => .ok (.bool (Assoc.contains key.text fields))
    | v, _ => .error (mismatch .contains "a string, array or struct" v)

end Stepwise.Builtin
