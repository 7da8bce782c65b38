import Stepwise.Script.Basic

/-!
# Positions in a script

A position is a route from the block of a unit down to a nested block: at each turn the index of a
statement and which of its blocks to enter. Positions are what a machine keeps of a script while it
runs it. Following one can fail, if it was made for another script.
-/

namespace Stepwise

/-- Which of its blocks to enter a statement through. -/
inductive BlockSel where
  | body
  | branch (i : Nat)
  | otherwise
  | handler
  deriving Repr, DecidableEq

/-- A route to a block; the empty one leads to the block of the unit itself. -/
abbrev BlockPath := List (Nat × BlockSel)

structure StmtPath where
  block : BlockPath
  index : Nat
  deriving Repr, DecidableEq

namespace StmtPath

/-- The route to one of the blocks of the statement. -/
def child (at_ : StmtPath) (sel : BlockSel) : BlockPath :=
  at_.block ++ [(at_.index, sel)]

end StmtPath

namespace Stmt

/-- The block of a statement that a selector names. -/
def block? : Stmt → BlockSel → Option Block
  | .compound block, .body => some block
  | .condition branches _ _, .branch i => (branches[i]?).map Branch.block
  | .condition _ otherwise _, .otherwise => otherwise
  | .cycle _ body _, .body => some body
  | .doCycle body _ _, .body => some body
  | .retry _ body _ _, .body => some body
  | .tryCatch body _ _ _, .body => some body
  | .tryCatch _ _ handler _, .handler => some handler
  | .included _ body _, .body => some body
  | _, _ => none

/-- The blocks of a statement that belong to the unit the statement is in, in order. The body of a
function is a unit of its own and not among them. -/
def children : Stmt → List (BlockSel × Block)
  | .compound block => [(.body, block)]
  | .condition branches otherwise _ =>
    branches.mapIdx (fun i b => (.branch i, b.block)) ++
      match otherwise with
      | some block => [(.otherwise, block)]
      | none => []
  | .cycle _ body _ => [(.body, body)]
  | .doCycle body _ _ => [(.body, body)]
  | .retry _ body _ _ => [(.body, body)]
  | .included _ body _ => [(.body, body)]
  | .tryCatch body _ handler _ => [(.body, body), (.handler, handler)]
  | _ => []

end Stmt

namespace Block

def follow? (b : Block) : BlockPath → Option Block
  | [] => some b
  | (index, sel) :: rest =>
    match b.body[index]? with
    | some stmt =>
      match stmt.block? sel with
      | some child => child.follow? rest
      | none => none
    | none => none

def stmtAt? (b : Block) (at_ : StmtPath) : Option Stmt :=
  match b.follow? at_.block with
  | some block => block.body[at_.index]?
  | none => none

end Block

end Stepwise
