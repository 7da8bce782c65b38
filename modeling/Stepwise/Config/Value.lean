import Stepwise.Json.Basic
import Stepwise.Number.Layout
import Stepwise.Number.Reader
import Stepwise.Text.Case
import Stepwise.Text.Quoted
import Stepwise.Text.Split
import Stepwise.Toml.Basic

/-!
# Values of a configuration

A configuration is a tree put together from several sources. Values of one type are accepted for
another where the meaning is plain: text that reads as a number for a number, a number for text, and
the usual words for true and false. What is not accepted is refused with a note of where it came
from.
-/

namespace Stepwise

inductive Scalar where
  | nil
  | bool (b : Bool)
  | int (n : Int)
  | float (x : Float)
  | str (s : String)

/-- A tree; `origin` is the source of a value. -/
inductive ConfigTree where
  | leaf (origin : String) (v : Scalar)
  | list (origin : String) (items : List ConfigTree)
  | table (entries : List (String × ConfigTree))
  deriving Inhabited

structure Unsuitable where
  got : String
  wanted : String
  /-- The keys that lead to the value, the outermost first. -/
  path : List String
  origin : Option String

namespace Unsuitable

/-- The path as one text: a point in front of a name, nothing in front of a place in a list. -/
def pathText : List String → String
  | [] => ""
  | [key] => key
  | key :: next :: rest =>
    key ++ (if next.startsWith "[" then "" else ".") ++ pathText (next :: rest)

def message (u : Unsuitable) : String :=
  let key := if u.path.isEmpty then "" else " for key `" ++ pathText u.path ++ "`"
  let source :=
    match u.origin with
    | some o => " in " ++ o
    | none => ""
  "invalid type: " ++ u.got ++ ", expected " ++ u.wanted ++ key ++ source

/-- The same one level further out. -/
def below (key : String) (u : Unsuitable) : Unsuitable := { u with path := key :: u.path }

end Unsuitable

namespace Scalar

/-- A value where another value is needed. -/
def describe : Scalar → String
  | .nil => "unit value"
  | .bool b => "boolean `" ++ toString b ++ "`"
  | .int n => "64-bit integer `" ++ toString n ++ "`"
  | .float x => "floating point `" ++ Number.text x ++ "`"
  | .str s => "string " ++ Text.quoted s

/-- A value where a section is needed. -/
def describeForSection : Scalar → String
  | .int n => "integer `" ++ toString n ++ "`"
  | .float x =>
    let text := Number.text x
    let point := if x.isFinite && !text.contains '.' then ".0" else ""
    "floating point `" ++ text ++ point ++ "`"
  | v => v.describe

end Scalar

namespace ConfigTree

mutual

def ofToml (origin : String) : Toml → ConfigTree
  | .str s => .leaf origin (.str s)
  | .int n => .leaf origin (.int n)
  | .float x => .leaf origin (.float x)
  | .bool b => .leaf origin (.bool b)
  | .datetime text => .leaf origin (.str text)
  | .array items => .list origin (listOfToml origin items)
  | .table entries => .table (entriesOfToml origin entries)

def listOfToml (origin : String) : List Toml → List ConfigTree
  | [] => []
  | t :: rest => ofToml origin t :: listOfToml origin rest

def entriesOfToml (origin : String) : List (String × Toml) → List (String × ConfigTree)
  | [] => []
  | (key, t) :: rest => (key, ofToml origin t) :: entriesOfToml origin rest

end

mutual

def ofJson (origin : String) : Json → ConfigTree
  | .null => .leaf origin .nil
  | .bool b => .leaf origin (.bool b)
  | .int n => .leaf origin (if n < 0x8000000000000000 then .int n else .float (Float.ofInt n))
  | .float x => .leaf origin (.float x)
  | .str s => .leaf origin (.str s)
  | .array items => .list origin (listOfJson origin items)
  | .object members => .table (entriesOfJson origin members)

def listOfJson (origin : String) : List Json → List ConfigTree
  | [] => []
  | j :: rest => ofJson origin j :: listOfJson origin rest

def entriesOfJson (origin : String) : List (String × Json) → List (String × ConfigTree)
  | [] => []
  | (key, j) :: rest => (key, ofJson origin j) :: entriesOfJson origin rest

end

/-! ## Putting trees together

Keys are kept in lower case, so that the case of a key does not matter. -/

/-- The entries of a table; what is no table has none. -/
def entries : ConfigTree → List (String × ConfigTree)
  | .table es => es
  | _ => []

mutual

/-- Put a value over what is there: a table is merged into it entry by entry, anything else replaces
it. -/
def merge (old : Option ConfigTree) : ConfigTree → ConfigTree
  | .leaf origin v => .leaf origin v
  | .list origin items => .list origin items
  | .table new => .table (mergeEntries ((old.map entries).getD []) new)

def mergeEntries (old : List (String × ConfigTree)) :
    List (String × ConfigTree) → List (String × ConfigTree)
  | [] => old
  | (key, v) :: rest =>
    let key := Text.lower key
    mergeEntries (Assoc.put key (merge (Assoc.get? key old) v) old) rest

end

/-- A tree that holds one value at the end of a path. -/
def atPath (v : ConfigTree) : List String → ConfigTree
  | [] => v
  | key :: rest => .table [(key, atPath v rest)]

/-- The parts of a key that is a path: names divided by points. -/
def keyPath (key : String) : List String :=
  let isName (part : String) : Bool :=
    !part.isEmpty && part.toList.all fun c => c.isAlphanum || c = '_' || c = '-'
  let parts := Text.split key "."
  if parts.all isName then parts else [key]

/-- Put the entries of a source over a tree, each at the path that its key is. -/
def mergeSource (old : ConfigTree) (source : List (String × ConfigTree)) : ConfigTree :=
  source.foldl (fun tree entry => merge (some tree) (atPath entry.2 (keyPath entry.1))) old

/-! ## Reading values -/

def describe : ConfigTree → String
  | .leaf _ v => v.describe
  | .list _ _ => "sequence"
  | .table _ => "map"

def origin? : ConfigTree → Option String
  | .leaf origin _ => some origin
  | .list origin _ => some origin
  | .table _ => none

def unsuitable (t : ConfigTree) (wanted : String) : Unsuitable :=
  ⟨t.describe, wanted, [], t.origin?⟩

def wordTruth? (s : String) : Option Bool :=
  let word := Text.lower s
  if word = "true" ∨ word = "on" ∨ word = "yes" then some true
  else if word = "false" ∨ word = "off" ∨ word = "no" then some false
  else none

def toBool (t : ConfigTree) : Except Unsuitable Bool :=
  match t with
  | .leaf _ (.bool b) => .ok b
  | .leaf _ (.int n) => .ok (n ≠ 0)
  | .leaf _ (.float x) => .ok (x != 0.0)
  | .leaf _ (.str s) =>
    if s = "1" then .ok true
    else if s = "0" then .ok false
    else
      match wordTruth? s with
      | some b => .ok b
      | none => .error (t.unsuitable "a boolean")
  | _ => .error (t.unsuitable "a boolean")

def toFloat (t : ConfigTree) : Except Unsuitable Float :=
  match t with
  | .leaf _ (.bool b) => .ok (if b then 1.0 else 0.0)
  | .leaf _ (.int n) => .ok (Float.ofInt n)
  | .leaf _ (.float x) => .ok x
  | .leaf _ (.str s) =>
    match wordTruth? s, Number.ofText? s with
    | some b, _ => .ok (if b then 1.0 else 0.0)
    | none, some x => .ok x
    | none, none => .error (t.unsuitable "a floating point")
  | _ => .error (t.unsuitable "a floating point")

/-- A whole number in decimal digits, with a plus in front allowed, of at most 64 bits. -/
def wordOfText? (s : String) : Option Nat :=
  let ds := match s.toList with
    | '+' :: rest => rest
    | cs => cs
  let n := Number.natOfDigits 0 ds
  if !ds.isEmpty && ds.all Char.isDigit && n < 0x10000000000000000 then some n else none

def toNat (t : ConfigTree) : Except Unsuitable Nat :=
  let wanted := "an unsigned 64 bit or less integer"
  match t with
  | .leaf _ (.bool b) => .ok (if b then 1 else 0)
  | .leaf _ (.int n) => if 0 ≤ n then .ok n.toNat else .error (t.unsuitable wanted)
  | .leaf _ (.float x) => .ok (Number.toCount (Number.round x))
  | .leaf _ (.str s) =>
    match wordTruth? s, wordOfText? s with
    | some b, _ => .ok (if b then 1 else 0)
    | none, some n => .ok n
    | none, none => .error (t.unsuitable wanted)
  | _ => .error (t.unsuitable wanted)

def toText (t : ConfigTree) : Except Unsuitable String :=
  match t with
  | .leaf _ (.bool b) => .ok (toString b)
  | .leaf _ (.int n) => .ok (toString n)
  | .leaf _ (.float x) => .ok (Number.text x)
  | .leaf _ (.str s) => .ok s
  | _ => .error (t.unsuitable "a string")

def toOption {α : Type} (read : ConfigTree → Except Unsuitable α) (t : ConfigTree) :
    Except Unsuitable (Option α) :=
  match t with
  | .leaf _ .nil => .ok none
  | t => (read t).map some

/-- A field of a section, by name, or by place if the section is a list. -/
def field {α : Type} (t : ConfigTree) (index : Nat) (name : String) (absent : α)
    (read : ConfigTree → Except Unsuitable α) : Except Unsuitable α :=
  match t with
  | .table es =>
    match Assoc.get? name es with
    | none => .ok absent
    | some v =>
      match read v with
      | .ok a => .ok a
      | .error u => .error (u.below name)
  | .list _ items =>
    match items[index]? with
    | none => .ok absent
    | some v =>
      match read v with
      | .ok a => .ok a
      | .error u => .error (u.below ("[" ++ toString index ++ "]"))
  | _ => .ok absent

/-- A section has fields; it is a table or a list. -/
def asSection (owner : String) (t : ConfigTree) : Except Unsuitable ConfigTree :=
  match t with
  | .leaf _ v => .error ⟨v.describeForSection, "struct " ++ owner, [], none⟩
  | t => .ok t

end ConfigTree

end Stepwise
