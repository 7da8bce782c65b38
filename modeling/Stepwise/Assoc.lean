/-!
# Association lists in key order

Variables, struct fields and lookup tables are finite maps from names. A map is the list of its
pairs, in increasing order of the key: names compare by code point, which for text in UTF-8 is the
order of the bytes. **The list is the canonical form**: two maps with the same entries are the same
list, so equality of maps is equality of lists, and printing in key order is just walking the list.

`put` replaces the value in place where the key is present and inserts it in order where it is not.
Reading back what was put therefore holds for every list, sorted or not; sortedness is needed only
where the order itself is the question.
-/

namespace Stepwise

/-- A finite map from names to `α`, as its pairs in key order. -/
abbrev Assoc (α : Type) := List (String × α)

namespace Assoc

variable {α : Type}

/-- The value stored under `key`. -/
def get? (key : String) : Assoc α → Option α
  | [] => none
  | (k, a) :: rest => if k = key then some a else get? key rest

def contains (key : String) (m : Assoc α) : Bool :=
  (get? key m).isSome

/-- Replace the value of the first pair with this key; other pairs stay where they are. -/
def replace (key : String) (a : α) : Assoc α → Assoc α
  | [] => []
  | (k, b) :: rest => if k = key then (k, a) :: rest else (k, b) :: replace key a rest

/-- Add a pair in front of the first larger key. -/
def insert (key : String) (a : α) : Assoc α → Assoc α
  | [] => [(key, a)]
  | (k, b) :: rest => if key < k then (key, a) :: (k, b) :: rest else (k, b) :: insert key a rest

/-- Bind `key` to `a`, over an earlier binding if there is one. -/
def put (key : String) (a : α) (m : Assoc α) : Assoc α :=
  if contains key m then replace key a m else insert key a m

/-- Drop every pair with this key. -/
def erase (key : String) (m : Assoc α) : Assoc α :=
  m.filter fun entry => entry.1 ≠ key

def keys (m : Assoc α) : List String :=
  m.map (·.1)

/-- The map that binds each pair in turn, so of two pairs with one key the later wins. -/
def ofList (pairs : List (String × α)) : Assoc α :=
  pairs.foldl (fun m entry => put entry.1 entry.2 m) []

/-- Keys strictly increase from pair to pair. -/
def Sorted (m : Assoc α) : Prop :=
  (keys m).Pairwise (· < ·)

end Assoc

end Stepwise
