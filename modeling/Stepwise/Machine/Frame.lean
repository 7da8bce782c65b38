import Stepwise.Program.Basic

/-!
# Frames

The position of a run inside a unit is a stack of frames, the innermost first: one for each block
that is being walked, and one for each structured statement that has more to do than that. There are
two ways to come by a stack. Running builds it up frame by frame, from `Frame.enter` on. A jump
makes the whole stack at once, with `Frame.resume`: every statement around the label gets its frame
in the phase in which it runs the block the label is in.
-/

namespace Stepwise

inductive ConditionPhase where
  | test
  /-- One of the blocks runs. -/
  | branch
  deriving Repr, DecidableEq

inductive LoopPhase where
  | test
  | body
  deriving Repr, DecidableEq

inductive RetryPhase where
  /-- The number of attempts is not known yet. -/
  | enter
  | body
  | test
  deriving Repr, DecidableEq

inductive TryPhase where
  | body
  | handler
  deriving Repr, DecidableEq

inductive FrameKind where
  /-- Walks a block; `next` is the statement to run next. -/
  | block (path : BlockPath) (next : Nat)
  | condition (place : StmtPath) (phase : ConditionPhase)
  | cycle (place : StmtPath) (phase : LoopPhase)
  | doCycle (place : StmtPath) (phase : LoopPhase)
  | retry (place : StmtPath) (phase : RetryPhase) (attempt max : UInt32)
  | tryCatch (place : StmtPath) (phase : TryPhase)
  deriving Repr, DecidableEq

structure Frame where
  kind : FrameKind
  /-- Results of calls in the evaluation that is under way. -/
  replay : List Value

namespace Frame

def new (kind : FrameKind) : Frame := ⟨kind, []⟩

def block (path : BlockPath) (next : Nat) : Frame := new (.block path next)

/-- The frames that start the statement at `place`, if it is a structured one. -/
def enter (stmt : Stmt) (place : StmtPath) : List Frame :=
  match stmt with
  | .compound .. => [block (place.child .body) 0]
  | .included .. => [block (place.child .body) 0]
  | .condition .. => [new (.condition place .test)]
  | .cycle .. => [new (.cycle place .test)]
  -- where the body runs first, the frame of the statement waits under it
  | .doCycle .. => [block (place.child .body) 0, new (.doCycle place .body)]
  | .retry .. => [new (.retry place .enter 0 0)]
  | .tryCatch .. => [block (place.child .body) 0, new (.tryCatch place .body)]
  | _ => []

/-- The frame of a structured statement while its block `sel` runs. A retry that was jumped into has
no attempts left. -/
def around (stmt : Stmt) (place : StmtPath) (sel : BlockSel) : List Frame :=
  match stmt, sel with
  | .condition .., _ => [new (.condition place .branch)]
  | .cycle .., _ => [new (.cycle place .body)]
  | .doCycle .., _ => [new (.doCycle place .body)]
  | .retry .., _ => [new (.retry place .body 1 1)]
  | .tryCatch .., .handler => [new (.tryCatch place .handler)]
  | .tryCatch .., _ => [new (.tryCatch place .body)]
  | _, _ => []

/-- The stack for a position below the block `b` at `path`: the route that is left to go, and in the
end the index to go on with. `below` is the stack around `b`. -/
def descend (b : Block) (path : BlockPath) (next : Nat) (below : List Frame) :
    BlockPath → Option (List Frame)
  | [] => some (block path next :: below)
  | (index, sel) :: rest =>
    match b.body[index]? with
    | none => none
    | some stmt =>
      match stmt.block? sel with
      | none => none
      | some child =>
        descend child (path ++ [(index, sel)]) next
          -- the block around the statement goes on behind it, as if it had been entered from there
          (around stmt ⟨path, index⟩ sel ++ block path (index + 1) :: below) rest

/-- The stack that goes on right behind the statement at `target`. -/
def resume (root : Block) (target : StmtPath) : Option (List Frame) :=
  descend root [] (target.index + 1) [] target.block

end Frame

end Stepwise
