import Stepwise.Toml.Number

/-!
# TOML documents

A document is read in two passes. The first reads its lines: pairs of a key and a value, and
headers. The second puts them together to a table. **What may be added to is decided there**: a
header opens a table once, though it may come after headers of tables inside it; keys with points
open tables as they go, and these cannot be opened again by a header; a value is never added to.
-/

namespace Stepwise.Toml

/-! ## Tables under construction -/

/-- How a table came about. -/
inductive Origin where
  /-- By a header of its own, or as the document. -/
  | header
  /-- On the way of a longer header. -/
  | passed
  /-- By a key with points. -/
  | dotted
  deriving Repr, DecidableEq

inductive Node where
  | value (v : Toml)
  | table (origin : Origin) (entries : List (String × Node))
  /-- The tables of an array, the latest first. -/
  | tables (items : List Node)

namespace Node

/-- Apply `f` to the entries of the table at a path below a table of the given origin, making the
tables that are missing. `f` is told the origin of the table it changes. The last table of an array
stands for the array. -/
def modify (origin : Origin)
    (f : Origin → List (String × Node) → Option (List (String × Node))) :
    List String → Origin → List (String × Node) → Option (List (String × Node))
  | [], self, entries => f self entries
  | key :: path, _, entries =>
    match Assoc.get? key entries with
    | none => do
      let child ← modify origin f path origin []
      return Assoc.put key (.table origin child) entries
    | some (.value _) => none
    | some (.table self child) =>
      if origin = .dotted ∧ self = .header then none
      else do
        let child ← modify origin f path self child
        return Assoc.put key (.table self child) entries
    | some (.tables (.table self child :: older)) => do
      let child ← modify origin f path self child
      return Assoc.put key (.tables (.table self child :: older)) entries
    | some (.tables _) => none

/-- Add a pair to the table at `path`, at the key's last part. A key with points may not end in a
table that has no part in such keys. -/
def addPair (path : List String) (last : String) (v : Toml) (self : Origin)
    (entries : List (String × Node)) : Option (List (String × Node)) :=
  modify .dotted
    (fun self entries =>
      if decide (self = .dotted) == path.isEmpty then none
      else if Assoc.contains last entries then none
      else some (Assoc.put last (.value v) entries))
    path self entries

def openTable (last : String) (_ : Origin) (entries : List (String × Node)) :
    Option (List (String × Node)) :=
  match Assoc.get? last entries with
  | none => some (Assoc.put last (.table .header []) entries)
  -- a longer header made the table, and its own comes only now
  | some (.table .passed child) => some (Assoc.put last (.table .header child) entries)
  | some _ => none

/-- Open one more table of an array by its header. -/
def openTables (last : String) (_ : Origin) (entries : List (String × Node)) :
    Option (List (String × Node)) :=
  match Assoc.get? last entries with
  | none => some (Assoc.put last (.tables [.table .header []]) entries)
  | some (.tables older) => some (Assoc.put last (.tables (.table .header [] :: older)) entries)
  | some _ => none

mutual

def toToml : Node → Toml
  | .value v => v
  | .table _ entries => .table (entriesToToml entries)
  | .tables items => .array (itemsToToml items).reverse

def entriesToToml : List (String × Node) → List (String × Toml)
  | [] => []
  | (key, node) :: rest => (key, node.toToml) :: entriesToToml rest

def itemsToToml : List Node → List Toml
  | [] => []
  | node :: rest => node.toToml :: itemsToToml rest

end

end Node

/-- Split a key into what leads to its table, and its last part. -/
def splitKey (parts : List String) : Option (List String × String) :=
  parts.getLast?.map fun last => (parts.dropLast, last)

/-! ## Values -/

/-- Items divided by commas, with a comma allowed behind the last, up to the closing bracket. -/
def arrayItems (value : Scan Toml) (fuel : Nat) : Scan (List Toml) := fun cs =>
  match fuel with
  | 0 => none
  | fuel + 1 =>
    match skipTrivia cs.length cs with
    | ']' :: rest => some ([], rest)
    | cs => do
      let (v, rest) ← value cs
      match skipTrivia rest.length rest with
      | ',' :: rest =>
        let (more, rest) ← arrayItems value fuel rest
        return (v :: more, rest)
      | ']' :: rest => return ([v], rest)
      | _ => none

/-- A key, an equals sign and a value. -/
def pair (value : Scan Toml) : Scan (List String × Toml) := fun cs => do
  let (parts, rest) ← key cs
  match rest with
  | '=' :: rest =>
    let (v, rest) ← value (skipBlanks rest)
    return ((parts, v), rest)
  | _ => none

/-- Pairs divided by commas, up to the closing brace. -/
def tablePairs (value : Scan Toml) (fuel : Nat) : Scan (List (List String × Toml)) := fun cs =>
  match fuel with
  | 0 => none
  | fuel + 1 => do
    let (p, rest) ← pair value cs
    match skipBlanks rest with
    | ',' :: rest =>
      let (more, rest) ← tablePairs value fuel rest
      return (p :: more, rest)
    | '\x7d' :: rest => return ([p], rest)
    | _ => none

def tableOfPairs (pairs : List (List String × Toml)) : Option Toml := do
  let entries ← pairs.foldlM
    (fun entries p => do
      let (path, last) ← splitKey p.1
      Node.addPair path last p.2 .header entries)
    []
  return Node.toToml (.table .header entries)

/-- A value, with arrays and tables nested at most `depth` deep. -/
def value (depth : Nat) : Scan Toml := fun cs =>
  match cs with
  | '"' :: _ => (string cs).map fun r => (.str r.1, r.2)
  | '\'' :: _ => (string cs).map fun r => (.str r.1, r.2)
  | 't' :: 'r' :: 'u' :: 'e' :: rest => some (.bool true, rest)
  | 'f' :: 'a' :: 'l' :: 's' :: 'e' :: rest => some (.bool false, rest)
  | '[' :: rest =>
    match depth with
    | 0 => none
    | depth + 1 =>
      (arrayItems (value depth) (rest.length + 1) rest).map fun r => (.array r.1, r.2)
  | '\x7b' :: rest =>
    match depth with
    | 0 => none
    | depth + 1 =>
      match skipBlanks rest with
      | '\x7d' :: rest => some (.table [], rest)
      | _ => do
        let (pairs, rest) ← tablePairs (value depth) (rest.length + 1) rest
        return (← tableOfPairs pairs, rest)
  | _ => numeric cs

/-! ## Lines -/

inductive Line where
  | pair (parts : List String) (v : Toml)
  | header (parts : List String)
  | arrayHeader (parts : List String)

def closing (marks : List Char) (cs : List Char) : Option (List Char) :=
  if cs.take marks.length = marks then some (cs.drop marks.length) else none

def line : Scan Line
  | '[' :: '[' :: rest => do
    let (parts, rest) ← key rest
    return (.arrayHeader parts, ← lineEnd? (← closing [']', ']'] rest))
  | '[' :: rest => do
    let (parts, rest) ← key rest
    return (.header parts, ← lineEnd? (← closing [']'] rest))
  | cs => do
    let ((parts, v), rest) ← pair (value maxDepth) cs
    return (.pair parts v, ← lineEnd? rest)

def lines (fuel : Nat) (cs : List Char) : Option (List Line) :=
  match fuel with
  | 0 => none
  | fuel + 1 =>
    match skipBlanks cs with
    | [] => some []
    | cs =>
      if cs.head? = some '#' ∨ (newline? cs).isSome then do
        lines fuel (← lineEnd? cs)
      else do
        let (l, rest) ← line cs
        return l :: (← lines fuel rest)

/-! ## Documents -/

/-- A document under construction: its entries, and the table that pairs go to. -/
structure Building where
  entries : List (String × Node)
  current : List String

/-- Change the entries of the table that pairs go to. It is there, since its header made it. -/
def atCurrent (b : Building)
    (f : Origin → List (String × Node) → Option (List (String × Node))) :
    Option (List (String × Node)) :=
  Node.modify .passed f b.current .header b.entries

def addLine (b : Building) : Line → Option Building
  | .pair parts v => do
    let (path, last) ← splitKey parts
    let entries ← atCurrent b (Node.addPair path last v)
    return { b with entries }
  | .header parts => do
    let (path, last) ← splitKey parts
    let entries ← Node.modify .passed (Node.openTable last) path .header b.entries
    return ⟨entries, parts⟩
  | .arrayHeader parts => do
    let (path, last) ← splitKey parts
    let entries ← Node.modify .passed (Node.openTables last) path .header b.entries
    return ⟨entries, parts⟩

/-- Read a document. A mark of the byte order in front of it does not count. -/
def parse? (text : String) : Option Toml := do
  let cs := match text.toList with
    | c :: rest => if c.toNat = 0xfeff then rest else c :: rest
    | [] => []
  let ls ← lines (cs.length + 1) cs
  let b ← ls.foldlM addLine ⟨[], []⟩
  return Node.toToml (.table .header b.entries)

end Stepwise.Toml
