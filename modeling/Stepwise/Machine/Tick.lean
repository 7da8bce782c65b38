import Stepwise.Machine.Unwind

/-!
# Micro-steps

`tick` makes the smallest move of a machine. It looks at the innermost frame only. Structured
statements move frames around and show nothing; a simple statement shows a record. Before anything
else a fault that looks for a handler is dealt with, and before that a cancelled run gets the fault
that no handler takes.
-/

namespace Stepwise

inductive Tick where
  | running
  | record (r : StepRecord)
  /-- There is nothing left to run. -/
  | done
  | failed (f : Failure)
  /-- A position leads nowhere; this does not happen to a machine of the program it was made for. -/
  | defect

namespace Machine

variable {σ : Type}

def unwind (env : Setting σ) (m : Machine σ) (failure : Failure) : Tick × Machine σ :=
  -- the scope stays as it is: functions that end this way put nothing back
  if failure.fault.isTerminal then
    (.failed failure, { m with activations := [], pending := none })
  else
    match findCaught m.scope m.activations with
    | .error scope =>
      (.failed failure, { m.withScope scope with activations := [], pending := none })
    | .ok c =>
      match m.handle env failure c with
      | some m => (.running, m)
      | none => (.defect, m)

def interrupt (env : Setting σ) (m : Machine σ) (line : Line) : Interrupt → Machine σ
  | .fault f => m.raise line f
  | .call name args => m.callFunction env line name args

/-- The line that a fault in a header shows: that of the expression if it is known. -/
def headerLine (test : Expr) (line : Line) : Line :=
  if test.line = 0 then line else test.line

/-- The record of a statement that is done. -/
def recorded (env : Setting σ) (m : Machine σ) (line : Line) (value : Option Value) :
    Tick × Machine σ :=
  match m.nextLine? env with
  | some nextLine => (.record ⟨line, value, nextLine⟩, m)
  | none => (.defect, m)

def apply (env : Setting σ) (m : Machine σ) (line : Line) : Effect → Tick × Machine σ
  | .value v => m.recorded env line v
  | .jump label =>
    match m.jump env label with
    | none => (.defect, m)
    | some (.error f) => (.running, m.raise line f)
    | some (.ok m) => m.recorded env line none
  | .sub label =>
    match m.gosub env label with
    | none => (.defect, m)
    | some (.error f) => (.running, m.raise line f)
    | some (.ok m) => m.recorded env line none
  | .ret v => (m.ret v).recorded env line v
  | .exit status => (m.terminate status).recorded env line status
  | .delay ns v => { m with delay := some ns }.recorded env line (some v)
  | .suspend => { m with suspended := true }.recorded env line none

/-- Run the next statement of a block. `below` are the frames under that of the block. -/
def runBlock (env : Setting σ) (m : Machine σ) (u : CodeUnit) (path : BlockPath) (next : Nat)
    (replay : List Value) (below : List Frame) : Tick × Machine σ :=
  match env.program.block? u path with
  | none => (.defect, m)
  | some block =>
    match block.body[next]? with
    | none => (.running, m.withFrames below)
    | some stmt =>
      -- where the block goes on once the statement is done or entered
      let passed : Frame := ⟨.block path (next + 1), replay⟩
      if stmt.isStructured then
        (.running, m.withFrames (Frame.enter stmt ⟨path, next⟩ ++ passed :: below))
      else
        match stmt.execute env m.store replay with
        | none => (.defect, m)
        | some r =>
          let m : Machine σ := { m with store := r.store }
          match r.result with
          | .ok effect =>
            (m.withFrames ({ passed with replay := r.replay } :: below)).apply env stmt.line effect
          | .error i =>
            -- the statement stays in front, with the results so far, and is executed again
            let m := m.withFrames (⟨.block path next, r.replay⟩ :: below)
            (.running, m.interrupt env stmt.line i)

/-- The first branch whose test holds, and the line of the last test that was made. -/
def chooseBranch (c : EvalContext σ) (line : Line) (index : Nat) :
    List Branch → StateM (EvalState σ) (Line × Except Interrupt (Option Nat))
  | [] => return (line, .ok none)
  | branch :: rest => do
    match ← (Eval.expr c branch.test).run with
    | .error i => return (headerLine branch.test line, .error i)
    | .ok v =>
      if v.isTruthy then return (headerLine branch.test line, .ok (some index))
      else chooseBranch c line (index + 1) rest

/-- Put the results of an evaluation in the frame `kind` on top of `below`, and go on if it has a
value. -/
def settle {α : Type} (env : Setting σ) (m : Machine σ) (kind : FrameKind) (below : List Frame)
    (line : Line) (r : Except Interrupt α × List Value × Store σ)
    (k : Machine σ → α → Machine σ) : Tick × Machine σ :=
  let (result, replay, store) := r
  let m := { m with store }.withFrames (⟨kind, replay⟩ :: below)
  match result with
  | .ok a => (.running, k m a)
  | .error i => (.running, m.interrupt env line i)

def evalTest (env : Setting σ) (m : Machine σ) (replay : List Value) (test : Expr) :
    Except Interrupt Bool × List Value × Store σ :=
  m.store.run env replay Interrupt.isCall fun c =>
    ExceptT.run do return (← Eval.expr c test).isTruthy

def runCondition (env : Setting σ) (m : Machine σ) (u : CodeUnit) (place : StmtPath)
    (phase : ConditionPhase) (replay : List Value) (below : List Frame) : Tick × Machine σ :=
  match env.program.stmt? u place with
  | some (.condition branches otherwise line) =>
    match phase with
    | .branch => (.running, m.withFrames below)
    | .test =>
      let ((testLine, result), replay, store) :=
        -- all tests share a list of results, as an evaluation starts again with the first of them
        m.store.run env replay (fun r => Interrupt.isCall r.2) fun c =>
          chooseBranch c line 0 branches
      let start (m : Machine σ) (sel : BlockSel) : Machine σ :=
        m.withFrames
          (Frame.block (place.child sel) 0 :: Frame.new (.condition place .branch) :: below)
      m.settle env (.condition place .test) below testLine (result, replay, store) fun m chosen =>
        match chosen, otherwise with
        | some i, _ => start m (.branch i)
        | none, some _ => start m .otherwise
        | none, none => m.withFrames below
  | _ => (.defect, m)

/-- Run a loop; `kind` is its frame in a given phase. -/
def runLoop (env : Setting σ) (m : Machine σ) (u : CodeUnit) (place : StmtPath)
    (kind : LoopPhase → FrameKind) (phase : LoopPhase) (replay : List Value)
    (below : List Frame) :
    Tick × Machine σ :=
  match phase with
  | .body => (.running, m.withFrames (⟨kind .test, replay⟩ :: below))
  | .test =>
    let go (test : Expr) (line : Line) : Tick × Machine σ :=
      m.settle env (kind .test) below (headerLine test line) (m.evalTest env replay test)
        fun m again =>
          if again then
            m.withFrames (Frame.block (place.child .body) 0 :: Frame.new (kind .body) :: below)
          else m.withFrames below
    match env.program.stmt? u place with
    | some (.cycle test _ line) => go test line
    | some (.doCycle _ test line) => go test line
    | _ => (.defect, m)

def attemptsOf (v : Value) : Except Fault UInt32 :=
  match v.num? with
  | some n =>
    if n.isNaN then .error (.typeError (.attempts v.typeName))
    -- there is always one attempt, and the number is cut off, not rounded
    else .ok (Number.toUInt32 (Number.max n 1.0))
  | none => .error (.typeError (.attempts v.typeName))

def runRetry (env : Setting σ) (m : Machine σ) (u : CodeUnit) (place : StmtPath)
    (phase : RetryPhase) (attempt max : UInt32) (replay : List Value) (below : List Frame) :
    Tick × Machine σ :=
  let start (m : Machine σ) (attempt max : UInt32) : Machine σ :=
    m.withFrames
      (Frame.block (place.child .body) 0 :: Frame.new (.retry place .body attempt max) :: below)
  match env.program.stmt? u place with
  | some (.retry attempts _ test line) =>
    match phase with
    | .enter =>
      let r := m.store.run env replay Interrupt.isCall fun c =>
        ExceptT.run do Eval.ofExcept (attemptsOf (← Eval.expr c attempts))
      m.settle env (.retry place .enter attempt max) below (headerLine attempts line) r
        fun m n => start m 1 n
    | .body =>
      match test with
      | some _ => (.running, m.withFrames (⟨.retry place .test attempt max, replay⟩ :: below))
      | none => (.running, m.withFrames below)
    | .test =>
      match test with
      | none => (.running, m.withFrames below)
      | some test =>
        m.settle env (.retry place .test attempt max) below (headerLine test line)
          (m.evalTest env replay test) fun m again =>
            -- a test that holds asks for another attempt, and gets it if one is left
            if again && attempt < max then start m (attempt + 1) max else m.withFrames below
  | _ => (.defect, m)

/-- A cancelled run that has no fault yet gets one. None if a position leads nowhere. -/
def heedCancel (env : Setting σ) (m : Machine σ) : Option (Machine σ) :=
  -- a fault that is on its way goes first, so a cancellation does not replace it
  if m.pending.isNone && !m.activations.isEmpty && m.cancelled then
    (m.nextLine? env).map fun line => m.raise line .cancelled
  else some m

def tick (env : Setting σ) (m : Machine σ) : Tick × Machine σ :=
  match m.heedCancel env with
  | none => (.defect, m)
  | some m =>
    match m.pending with
    | some failure => m.unwind env failure
    | none =>
      match m.activations with
      | [] => (.done, m)
      | act :: _ =>
        match act.frames with
        | [] =>
          match act.unit with
          | .main => (.done, { m with activations := [] })
          | .function _ => (.running, m.returnFromFunction .null)
        | frame :: below =>
          match frame.kind with
          | .block path next => m.runBlock env act.unit path next frame.replay below
          | .condition place phase => m.runCondition env act.unit place phase frame.replay below
          | .cycle place phase =>
            m.runLoop env act.unit place (.cycle place) phase frame.replay below
          | .doCycle place phase =>
            m.runLoop env act.unit place (.doCycle place) phase frame.replay below
          | .retry place phase attempt max =>
            m.runRetry env act.unit place phase attempt max frame.replay below
          | .tryCatch _ _ => (.running, m.withFrames below)

end Machine

end Stepwise
