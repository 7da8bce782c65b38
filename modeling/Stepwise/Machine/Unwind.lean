import Stepwise.Machine.Basic

/-!
# Unwinding

A fault looks for a handler outwards: through the frames of the innermost activation, then through
the stacks its subroutine calls put aside, the latest first, then through the activation of the
caller. A handler is a try statement that runs its body, or a retry that runs its body and has
attempts left. Functions that are left on the way put back what their parameters shadowed.
-/

namespace Stepwise

inductive Handler where
  | tryCatch (place : StmtPath)
  | retry (place : StmtPath) (attempt max : UInt32)
  deriving Repr, DecidableEq

namespace Frame

def handler? (f : Frame) : Option Handler :=
  match f.kind with
  | .tryCatch place .body => some (.tryCatch place)
  | .retry place .body attempt max =>
    -- the last attempt lets its faults through
    if attempt < max then some (.retry place attempt max) else none
  | _ => none

/-- The innermost handler of a stack, and the frames below it. -/
def findHandler : List Frame → Option (Handler × List Frame)
  | [] => none
  | f :: below =>
    match f.handler? with
    | some h => some (h, below)
    | none => findHandler below

/-- The innermost handler of several stacks, with the frames below it and the stacks behind. -/
def findInStacks : List (List Frame) → Option (Handler × List Frame × List (List Frame))
  | [] => none
  | frames :: older =>
    match findHandler frames with
    | some (h, below) => some (h, below, older)
    | none => findInStacks older

end Frame

structure Caught where
  handler : Handler
  /-- The activation of the handler, with the frames below it. -/
  activation : Activation
  callers : List Activation
  /-- The scope without the parameters of the functions that were left. -/
  scope : Scope

namespace Machine

variable {σ : Type}

/-- Look for a handler. If there is none, what comes back is the scope at the end: functions that
were left have put back their bindings. -/
def findCaught (scope : Scope) : List Activation → Except Scope Caught
  | [] => .error scope
  | act :: callers =>
    match Frame.findInStacks (act.frames :: act.subroutines) with
    | some (handler, frames, subroutines) =>
      .ok ⟨handler, { act with frames, subroutines }, callers, scope⟩
    | none =>
      match act.unit with
      | .main => .error scope
      | .function _ => findCaught (scope.restoreAll act.saved) callers

/-- The machine with a handler started. The handler of a try statement gets to see the fault; that
its variable is a constant is a fault of its own. None if the handler belongs to no try
statement. -/
def handle (env : Setting σ) (m : Machine σ) (failure : Failure) (c : Caught) :
    Option (Machine σ) :=
  let m : Machine σ :=
    { m.withScope c.scope with activations := c.activation :: c.callers, pending := none }
  let push (frames : List Frame) : Machine σ := m.withFrames (frames ++ c.activation.frames)
  match c.handler with
  | .retry place attempt max =>
    some (push [Frame.block (place.child .body) 0,
      Frame.new (.retry place .body (attempt + 1) max)])
  | .tryCatch place =>
    match env.program.stmt? c.activation.unit place with
    | some (.tryCatch _ catchVar _ line) =>
      let m := push [Frame.block (place.child .handler) 0, Frame.new (.tryCatch place .handler)]
      match catchVar with
      | none => some m
      | some name =>
        match m.scope.set name failure.fault.payload with
        | .ok scope => some (m.withScope scope)
        | .error f => some (m.raise line f)
    | _ => none

end Machine

end Stepwise
