import Stepwise.Machine.Frame
import Stepwise.Machine.Statement

/-!
# The machine

The state of a run. Activations are the units that are running, the innermost first and the main
program last; each has the stack of its position, the stacks that subroutine calls put aside, and
the bindings that its parameters shadow. All lists are stacks with the top in front.
-/

namespace Stepwise

structure Activation where
  unit : CodeUnit
  frames : List Frame
  /-- Stacks to go back to, the latest first. -/
  subroutines : List (List Frame)
  /-- Shadowed bindings, the latest first. -/
  saved : List (String × Option Value)

namespace Activation

def new (u : CodeUnit) (saved : List (String × Option Value)) : Activation :=
  ⟨u, [Frame.block [] 0], [], saved⟩

end Activation

structure StepRecord where
  line : Line
  value : Option Value
  /-- The line where the run goes on. -/
  nextLine : Line

structure Machine (σ : Type) where
  store : Store σ
  activations : List Activation
  /-- A fault that looks for a handler. -/
  pending : Option Failure
  finished : Bool
  exitStatus : Option Value
  /-- Nanoseconds that the last delay asks to wait. -/
  delay : Option Nat
  suspended : Bool
  cancelled : Bool

namespace Machine

variable {σ : Type}

def new (scope : Scope) (world : σ) : Machine σ where
  store := ⟨scope, [], world⟩
  activations := [Activation.new .main []]
  pending := none
  finished := false
  exitStatus := none
  delay := none
  suspended := false
  cancelled := false

def scope (m : Machine σ) : Scope := m.store.scope

def withScope (m : Machine σ) (scope : Scope) : Machine σ :=
  { m with store := { m.store with scope } }

def takeDelay (m : Machine σ) : Option Nat × Machine σ := (m.delay, { m with delay := none })

def resume (m : Machine σ) : Machine σ := { m with suspended := false }

def cancel (m : Machine σ) : Machine σ := { m with cancelled := true }

/-! ## Frames -/

def mapTop (m : Machine σ) (f : Activation → Activation) : Machine σ :=
  match m.activations with
  | [] => m
  | act :: rest => { m with activations := f act :: rest }

def withFrames (m : Machine σ) (frames : List Frame) : Machine σ :=
  m.mapTop fun act => { act with frames }

def mapFrame (m : Machine σ) (f : Frame → Frame) : Machine σ :=
  m.mapTop fun act =>
    match act.frames with
    | [] => act
    | frame :: below => { act with frames := f frame :: below }

/-- The line where the run goes on; none if a position leads nowhere. -/
def nextLine? (env : Setting σ) (m : Machine σ) : Option Line :=
  match m.activations with
  | [] => some env.program.root.endLine
  | act :: _ =>
    match act.frames with
    | [] => (env.program.unitRoot? act.unit).map Block.endLine
    | frame :: _ =>
      match frame.kind with
      | .block path next => (env.program.block? act.unit path).map fun b => b.lineAt next
      | .condition place _ | .cycle place _ | .doCycle place _ | .retry place _ _ _
      | .tryCatch place _ => (env.program.stmt? act.unit place).map Stmt.line

/-! ## Faults -/

/-- Start looking for a handler of a fault that the statement on `line` raised. -/
def raise (m : Machine σ) (line : Line) (fault : Fault) : Machine σ :=
  let failure : Failure := ⟨line, fault⟩
  -- the evaluation is given up, and its results with it
  let m := m.mapFrame fun frame => { frame with replay := [] }
  { m with
    store := { m.store with scope := m.store.scope.noteFailure failure }
    pending := some failure }

/-! ## Functions -/

/-- Bind parameters one after the other, and collect what they shadow, the latest first. -/
def bindParams (scope : Scope) (saved : List (String × Option Value)) :
    List (String × Value) → Except Fault (List (String × Option Value)) × Scope
  | [] => (.ok saved, scope)
  | (param, arg) :: rest =>
    let previous := scope.get? param
    match scope.set param arg with
    -- parameters bound before the one that is refused are put back at once
    | .error f => (.error f, scope.restoreAll saved)
    | .ok scope => bindParams scope ((param, previous) :: saved) rest

/-- Start the call of a function that the statement on `line` asked for. -/
def callFunction (env : Setting σ) (m : Machine σ) (line : Line) (name : String)
    (args : List Value) : Machine σ :=
  match env.program.function? name with
  | none => m.raise line (.undefinedFunction name)
  | some d =>
    -- the main program is an activation, too, and does not count
    if env.options.maxCallDepth < m.activations.length then
      m.raise line (.callDepthExceeded env.options.maxCallDepth)
    else if d.params.length ≠ args.length then
      m.raise line (.wrongArgCount name d.params.length args.length)
    else
      match bindParams m.scope [] (d.params.zip args) with
      | (.error f, scope) => (m.withScope scope).raise line f
      | (.ok saved, scope) =>
        let m := m.withScope scope
        { m with activations := Activation.new (.function name) saved :: m.activations }

/-- Leave the innermost function; its value goes to the evaluation that asked for it. -/
def returnFromFunction (m : Machine σ) (value : Value) : Machine σ :=
  match m.activations with
  | [] => m
  | act :: rest =>
    let m := { m.withScope (m.scope.restoreAll act.saved) with activations := rest }
    m.mapFrame fun frame => { frame with replay := frame.replay ++ [value] }

def terminate (m : Machine σ) (status : Option Value) : Machine σ :=
  { m with activations := [], exitStatus := status }

/-! ## Jumps -/

/-- Go on behind a label of the unit. The outer `none` is a position that leads nowhere. -/
def jump (env : Setting σ) (m : Machine σ) (label : String) :
    Option (Except Fault (Machine σ)) :=
  match m.activations with
  | [] => some (.ok m)
  | act :: _ =>
    match env.program.label? act.unit label with
    | none => some (.error (.undefinedLabel label))
    | some target =>
      match env.program.unitRoot? act.unit with
      | none => none
      | some root =>
        match Frame.resume root target with
        | none => none
        | some frames => some (.ok (m.withFrames frames))

/-- Put the position aside, and go on behind a label. -/
def gosub (env : Setting σ) (m : Machine σ) (label : String) :
    Option (Except Fault (Machine σ)) :=
  match m.activations with
  | [] => some (.ok m)
  | act :: _ =>
    if env.options.maxCallDepth ≤ act.subroutines.length then
      some (.error (.callDepthExceeded env.options.maxCallDepth))
    -- a label that is missing refuses the call before the position is put aside
    else if (env.program.label? act.unit label).isNone then
      some (.error (.undefinedLabel label))
    else
      (m.mapTop fun act => { act with subroutines := act.frames :: act.subroutines }).jump env label

/-- Return from the innermost subroutine, else function, else program. -/
def ret (m : Machine σ) (value : Option Value) : Machine σ :=
  match m.activations with
  | [] => m
  | act :: _ =>
    match act.subroutines with
    | frames :: older => m.mapTop fun act => { act with frames, subroutines := older }
    | [] =>
      match act.unit with
      | .function _ => m.returnFromFunction (value.getD .null)
      | .main => m.terminate value

end Machine

end Stepwise
