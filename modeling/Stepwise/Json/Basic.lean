import Stepwise.Assoc

/-!
# JSON values

The tree behind every JSON text the library reads or writes. Whole numbers and doubles are kept
apart, because messages about a wrong value say which of the two it was. The members of an object
are in key order and no key occurs twice, so a tree has one text.
-/

namespace Stepwise

inductive Json where
  | null
  | bool (b : Bool)
  /-- A whole number written without point and exponent. -/
  | int (n : Int)
  | float (x : Float)
  | str (s : String)
  | array (items : List Json)
  | object (members : List (String × Json))
  deriving Inhabited

namespace Json

/-- The object with these members; of two with one key the later wins. -/
def ofMembers (members : List (String × Json)) : Json :=
  .object (Assoc.ofList members)

mutual

/-- How deep arrays and objects nest. -/
def depth : Json → Nat
  | .array items => depthItems items + 1
  | .object members => depthMembers members + 1
  | _ => 0

def depthItems : List Json → Nat
  | [] => 0
  | j :: rest => max (depth j) (depthItems rest)

def depthMembers : List (String × Json) → Nat
  | [] => 0
  | (_, j) :: rest => max (depth j) (depthMembers rest)

end

/-- The member of an object with this key. -/
def member? (key : String) : Json → Option Json
  | .object members => Assoc.get? key members
  | _ => none

end Json

end Stepwise
