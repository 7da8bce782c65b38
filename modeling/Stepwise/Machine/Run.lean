import Stepwise.Machine.Tick

/-!
# Steps and runs

`step` makes micro-steps until a statement has run. `advance` makes those that lead up to the next
simple statement, and stops in front of it. Both take the number of micro-steps they may make, since
a script can loop without ever running a simple statement.
-/

namespace Stepwise

inductive Step where
  | record (r : StepRecord)
  | ended
  | failed (f : Failure)
  | defect
  | outOfFuel

/-- What the next micro-step is about to do. -/
inductive Ahead where
  | statement
  | header (line : Line)
  | frames

namespace Machine

variable {σ : Type}

def step (env : Setting σ) (fuel : Nat) (m : Machine σ) : Step × Machine σ :=
  if m.finished then (.ended, m)
  else
    match fuel with
    | 0 => (.outOfFuel, m)
    | fuel + 1 =>
      match m.tick env with
      | (.running, m) => m.step env fuel
      -- a statement that ends the program has a record, and the run is over with it
      | (.record r, m) => (.record r, { m with finished := m.finished || m.activations.isEmpty })
      | (.done, m) => (.ended, { m with finished := true })
      | (.failed f, m) => (.failed f, { m with finished := true })
      | (.defect, m) => (.defect, m)

def ahead? (env : Setting σ) (m : Machine σ) : Option Ahead :=
  match m.activations with
  | [] => some .frames
  | act :: _ =>
    match act.frames with
    | [] => some .frames
    | frame :: _ =>
      let header (place : StmtPath) : Option Ahead :=
        (env.program.stmt? act.unit place).map fun s => .header s.line
      match frame.kind with
      | .block path next =>
        (env.program.block? act.unit path).map fun b =>
          match b.body[next]? with
          -- a structured statement is entered by moving frames; its header comes after that
          | some s => if s.isStructured then .frames else .statement
          | none => .frames
      | .condition place .test => header place
      | .cycle place .test => header place
      | .doCycle place .test => header place
      | .retry place .enter _ _ => header place
      | .retry place .test _ _ => header place
      | _ => some .frames

inductive Advance where
  | stopped
  | defect
  | outOfFuel

/-- Go up to the next simple statement without running it. Headers on the way are evaluated, but one
on a line that `stop` names is not, and a fault is left where it is. -/
def advance (env : Setting σ) (stop : Line → Bool) (fuel : Nat) (m : Machine σ) :
    Advance × Machine σ :=
  if m.finished || m.pending.isSome || m.cancelled then (.stopped, m)
  else
    match fuel with
    | 0 => (.outOfFuel, m)
    | fuel + 1 =>
      let go : Advance × Machine σ :=
        match m.tick env with
        | (.running, m) => m.advance env stop fuel
        | (.done, m) => (.stopped, { m with finished := true })
        | (.record _, m) => (.stopped, m)
        | (.failed _, m) => (.stopped, m)
        | (.defect, m) => (.defect, m)
      match m.ahead? env with
      | none => (.defect, m)
      | some .statement => (.stopped, m)
      | some (.header line) => if stop line then (.stopped, m) else go
      | some .frames => go

inductive RunEnd where
  | ended
  | failed (f : Failure)
  | defect
  | outOfFuel
  /-- There were as many records as were asked for. -/
  | limit

/-- Steps until the run is over, with a bound on the records and on the micro-steps of each. -/
def run (env : Setting σ) (fuel : Nat) (limit : Nat) (m : Machine σ) :
    List StepRecord × RunEnd × Machine σ :=
  match limit with
  | 0 => ([], .limit, m)
  | limit + 1 =>
    match m.step env fuel with
    | (.record r, m) =>
      let (records, ending, m) := m.run env fuel limit
      (r :: records, ending, m)
    | (.ended, m) => ([], .ended, m)
    | (.failed f, m) => ([], .failed f, m)
    | (.defect, m) => ([], .defect, m)
    | (.outOfFuel, m) => ([], .outOfFuel, m)

/-- A record with what the machine asks of its host after it. -/
structure Observed where
  record : StepRecord
  delay : Option Nat
  suspended : Bool

/-- A run by a host that waits for nothing: it takes every delay and resumes at once. -/
def observe (env : Setting σ) (fuel : Nat) (limit : Nat) (m : Machine σ) :
    List Observed × RunEnd × Machine σ :=
  match limit with
  | 0 => ([], .limit, m)
  | limit + 1 =>
    match m.step env fuel with
    | (.record record, m) =>
      let (delay, m) := m.takeDelay
      let seen : Observed := ⟨record, delay, m.suspended⟩
      let (rest, ending, m) := m.resume.observe env fuel limit
      (seen :: rest, ending, m)
    | (.ended, m) => ([], .ended, m)
    | (.failed f, m) => ([], .failed f, m)
    | (.defect, m) => ([], .defect, m)
    | (.outOfFuel, m) => ([], .outOfFuel, m)

end Machine

end Stepwise
