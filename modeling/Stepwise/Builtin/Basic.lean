import Stepwise.Fault

/-!
# Built-in functions

The names that a script can call without declaring them, and what they ask of their arguments. The
number of arguments is checked before anything else.
-/

namespace Stepwise

inductive Builtin where
  | len | str | int | float | upper | lower | trim | contains | split | join | replace | substr
  | append | keys | now | jsonParse | jsonStringify | abs | round | floor | ceil | min | max
  deriving Repr, DecidableEq

namespace Builtin

def all : List Builtin :=
  [.len, .str, .int, .float, .upper, .lower, .trim, .contains, .split, .join, .replace, .substr,
   .append, .keys, .now, .jsonParse, .jsonStringify, .abs, .round, .floor, .ceil, .min, .max]

def name : Builtin → String
  | .len => "len"
  | .str => "str"
  | .int => "int"
  | .float => "float"
  | .upper => "upper"
  | .lower => "lower"
  | .trim => "trim"
  | .contains => "contains"
  | .split => "split"
  | .join => "join"
  | .replace => "replace"
  | .substr => "substr"
  | .append => "append"
  | .keys => "keys"
  | .now => "now"
  | .jsonParse => "json_parse"
  | .jsonStringify => "json_stringify"
  | .abs => "abs"
  | .round => "round"
  | .floor => "floor"
  | .ceil => "ceil"
  | .min => "min"
  | .max => "max"

def ofName? (s : String) : Option Builtin := all.find? fun b => b.name = s

/-! ## Arguments -/

def wrongCount (b : Builtin) (expected got : Nat) : Fault := .wrongArgCount b.name expected got

def mismatch (b : Builtin) (wanted : String) (v : Value) : Fault :=
  .typeError (.argument b.name wanted v.typeName)

def number (b : Builtin) : Value → Except Fault Float
  | .num x => .ok x
  | v => .error (b.mismatch "a number" v)

def text (b : Builtin) : Value → Except Fault String
  | .str s => .ok s
  | v => .error (b.mismatch "a string" v)

def one (b : Builtin) (args : List Value) (f : Value → Except Fault Value) : Except Fault Value :=
  match args with
  | [a] => f a
  | _ => .error (b.wrongCount 1 args.length)

def two (b : Builtin) (args : List Value) (f : Value → Value → Except Fault Value) :
    Except Fault Value :=
  match args with
  | [a, c] => f a c
  | _ => .error (b.wrongCount 2 args.length)

def three (b : Builtin) (args : List Value) (f : Value → Value → Value → Except Fault Value) :
    Except Fault Value :=
  match args with
  | [a, c, d] => f a c d
  | _ => .error (b.wrongCount 3 args.length)

end Builtin

end Stepwise
