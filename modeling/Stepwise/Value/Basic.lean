import Stepwise.Assoc
import Stepwise.Number.Layout
import Stepwise.Json.Printer

/-!
# Values of a script

What variables hold, expressions yield and services answer. A struct has its fields in key order. An
error is a value like any other: a script can keep it in a variable, and reading its `code` and
`message` looks like reading fields.
-/

namespace Stepwise

structure ErrorInfo where
  code : String
  message : String
  deriving Repr, DecidableEq

inductive Value where
  | null
  | bool (b : Bool)
  | num (x : Float)
  | str (s : String)
  | array (items : List Value)
  | struct (fields : List (String × Value))
  | error (info : ErrorInfo)
  deriving Inhabited

namespace Value

/-- Everything counts as true but null, false, zero and what is empty. -/
def isTruthy : Value → Bool
  | .null => false
  | .bool b => b
  | .num x => x != 0.0
  | .str s => !s.isEmpty
  | .array items => !items.isEmpty
  | .struct fields => !fields.isEmpty
  | .error _ => true

def typeName : Value → String
  | .null => "null"
  | .bool _ => "bool"
  | .num _ => "number"
  | .str _ => "string"
  | .array _ => "array"
  | .struct _ => "struct"
  | .error _ => "error"

def num? : Value → Option Float
  | .num x => some x
  | _ => none

/-! ## Equality

Values compare part by part. Numbers compare as numbers do: the two zeros are equal, and "not a
number" differs from itself, so a value that holds one differs from itself too. -/

mutual

def beq : Value → Value → Bool
  | .null, .null => true
  | .bool a, .bool b => a == b
  | .num x, .num y => x == y
  | .str s, .str t => s == t
  | .array xs, .array ys => beqItems xs ys
  | .struct fs, .struct gs => beqFields fs gs
  | .error e, .error f => e == f
  | _, _ => false

def beqItems : List Value → List Value → Bool
  | [], [] => true
  | x :: xs, y :: ys => beq x y && beqItems xs ys
  | _, _ => false

def beqFields : List (String × Value) → List (String × Value) → Bool
  | [], [] => true
  -- both are in key order, so equal structs agree place by place
  | (k, x) :: fs, (l, y) :: gs => k == l && beq x y && beqFields fs gs
  | _, _ => false

end

instance : BEq Value := ⟨beq⟩

/-! ## Plain JSON -/

/-- A number in plain JSON: small whole numbers are integers, and one that is not finite is null. -/
def numToJson (x : Float) : Json :=
  match Number.smallWhole? x with
  | some n => .int n
  | none => if x.isFinite then .float x else .null

mutual

/-- The value without type tags. An error becomes an object, which no longer tells it from a
struct. -/
def toJson : Value → Json
  | .null => .null
  | .bool b => .bool b
  | .num x => numToJson x
  | .str s => .str s
  | .array items => .array (toJsonItems items)
  | .struct fields => .object (toJsonFields fields)
  | .error info => .object [("code", .str info.code), ("message", .str info.message)]

def toJsonItems : List Value → List Json
  | [] => []
  | v :: rest => toJson v :: toJsonItems rest

def toJsonFields : List (String × Value) → List (String × Json)
  | [] => []
  | (k, v) :: rest => (k, toJson v) :: toJsonFields rest

end

mutual

/-- The value that a plain JSON tree stands for. -/
def ofJson : Json → Value
  | .null => .null
  | .bool b => .bool b
  | .int n => .num (Float.ofInt n)
  | .float x => .num x
  | .str s => .str s
  | .array items => .array (ofJsonItems items)
  | .object members => .struct (ofJsonMembers members)

def ofJsonItems : List Json → List Value
  | [] => []
  | j :: rest => ofJson j :: ofJsonItems rest

def ofJsonMembers : List (String × Json) → List (String × Value)
  | [] => []
  | (k, j) :: rest => (k, ofJson j) :: ofJsonMembers rest

end

/-! ## Text -/

/-- How a value reads in text: null is empty, strings are bare, and arrays and structs are JSON. -/
def text : Value → String
  | .null => ""
  | .bool b => if b then "true" else "false"
  | .num x =>
    match Number.smallWhole? x with
    | some n => toString n
    | none => Number.text x
  | .str s => s
  | .array items => (toJson (.array items)).render
  | .struct fields => (toJson (.struct fields)).render
  | .error info => info.code ++ ": " ++ info.message

end Value

end Stepwise
