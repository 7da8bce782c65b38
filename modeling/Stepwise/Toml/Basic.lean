import Stepwise.Json.Basic

/-!
# TOML values

What a TOML text denotes: a table of values. A date or time is kept as its normal text.
-/

namespace Stepwise

inductive Toml where
  | str (s : String)
  | int (n : Int)
  | float (x : Float)
  | bool (b : Bool)
  | datetime (text : String)
  | array (items : List Toml)
  | table (entries : List (String × Toml))
  deriving Inhabited

namespace Toml

/-- The one member of the object that stands for a date or time in JSON. -/
def datetimeKey : String := "$__toml_private_datetime"

mutual

/-- A value as JSON. Numbers that JSON cannot write become null. -/
def toJson : Toml → Json
  | .str s => .str s
  | .int n => .int n
  | .float x => if x.isFinite then .float x else .null
  | .bool b => .bool b
  | .datetime text => .object [(datetimeKey, .str text)]
  | .array items => .array (listToJson items)
  | .table entries => .ofMembers (membersToJson entries)

def listToJson : List Toml → List Json
  | [] => []
  | t :: rest => t.toJson :: listToJson rest

def membersToJson : List (String × Toml) → List (String × Json)
  | [] => []
  | (key, t) :: rest => (key, t.toJson) :: membersToJson rest

end

def lookup? (key : String) : Toml → Option Toml
  | .table entries => Assoc.get? key entries
  | _ => none

end Toml

end Stepwise
