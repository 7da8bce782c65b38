import Stepwise.Machine.Run

/-!
# Sessions

A session runs a machine for someone who watches it: it waits for delays, pauses in front of
breakpoints, stops where the script suspends itself, and can be cancelled from outside. Time is
counted in whole milliseconds of a clock that moves only while the session waits, so a session is a
function of its machine and of when it is cancelled.
-/

namespace Stepwise

inductive Outcome where
  | completed (status : Option Value)
  /-- The next statement is on a breakpoint. -/
  | paused (line : Line)
  /-- The script suspended itself; it goes on at this line. -/
  | suspended (line : Line)
  | failed (f : Failure)
  | cancelled
  | defect
  | outOfFuel

namespace Outcome

def isFinal : Outcome → Bool
  | .paused _ => false
  | .suspended _ => false
  | _ => true

end Outcome

/-- When a session is cancelled from outside. -/
structure Cancellation where
  /-- While the record of this number is handed over, counted from one over the whole session. -/
  atRecord : Option Nat
  /-- When the clock shows this time. -/
  atTime : Option Nat

structure Session (σ : Type) where
  machine : Machine σ
  breakpoints : List Line
  cancellation : Cancellation
  /-- Milliseconds that the session has waited. -/
  clock : Nat
  count : Nat

/-- What one call of `Session.run` shows. -/
structure Report where
  records : List StepRecord
  outcome : Outcome
  /-- Milliseconds that the call has waited. -/
  elapsed : Nat

namespace Session

variable {σ : Type}

def new (machine : Machine σ) (breakpoints : List Line) (cancellation : Cancellation) :
    Session σ where
  -- number zero stands for the time before the first record
  machine := if cancellation.atRecord = some 0 then machine.cancel else machine
  breakpoints
  cancellation
  clock := 0
  count := 0

/-- Whole milliseconds that contain these nanoseconds. -/
def toMilliseconds (nanoseconds : Nat) : Nat := (nanoseconds + 999999) / 1000000

/-- Whether the time of the cancellation has come. -/
def isDue (s : Session σ) : Bool :=
  match s.cancellation.atTime with
  | some t => t ≤ s.clock
  | none => false

def hand (s : Session σ) : Session σ :=
  let count := s.count + 1
  let machine := if s.cancellation.atRecord = some count then s.machine.cancel else s.machine
  { s with machine, count }

/-- Wait `ms` milliseconds, or up to the cancellation. One that is due at the very end of the wait
is noticed at the next one. -/
def wait (s : Session σ) (ms : Nat) : Session σ :=
  if ms = 0 || s.machine.cancelled then s
  else
    let ending := s.clock + ms
    match s.cancellation.atTime with
    | some t =>
      -- a time that has passed already does not turn the clock back
      if t < ending then { s with machine := s.machine.cancel, clock := max t s.clock }
      else { s with clock := ending }
    | none => { s with clock := ending }

/-- Give way to the outside between two statements. -/
def yield (s : Session σ) : Session σ :=
  if s.isDue then { s with machine := s.machine.cancel } else s

/-- What the script asked for after a statement: a wait, or nothing. -/
def pass (s : Session σ) : Session σ :=
  let (delay, machine) := s.machine.takeDelay
  let s := { s with machine }
  match delay with
  | some ns => s.wait (toMilliseconds ns)
  | none => s.yield

/-- Go up to the next statement, and say whether to stop there. -/
def look (env : Setting σ) (fuel : Nat) (s : Session σ) : Option Outcome × Session σ :=
  let suspended := s.machine.suspended
  let stop (line : Line) : Bool := suspended || s.breakpoints.contains line
  match s.machine.advance env stop fuel with
  | (.defect, machine) => (some .defect, { s with machine })
  | (.outOfFuel, machine) => (some .outOfFuel, { s with machine })
  | (.stopped, machine) =>
    let s := { s with machine }
    if machine.finished then (some (.completed machine.exitStatus), s)
    else
      match machine.nextLine? env with
      | none => (some .defect, s)
      | some line =>
        -- a suspension is reported also where the next statement has a breakpoint
        if suspended then (some (.suspended line), s)
        else if s.breakpoints.contains line then (some (.paused line), s)
        else (none, s)

/-- One statement: its record if there is one, and how the call ends if it ends here. -/
def advance (env : Setting σ) (fuel : Nat) (s : Session σ) :
    Option StepRecord × Option Outcome × Session σ :=
  match s.machine.step env fuel with
  | (.ended, machine) => (none, some (.completed machine.exitStatus), { s with machine })
  | (.failed f, machine) =>
    (none, some (if f.fault.isTerminal then .cancelled else .failed f), { s with machine })
  | (.defect, machine) => (none, some .defect, { s with machine })
  | (.outOfFuel, machine) => (none, some .outOfFuel, { s with machine })
  | (.record r, machine) =>
    -- the record is handed out before the wait that its statement asked for
    let (outcome, s) := { s with machine }.hand.pass.look env fuel
    (some r, outcome, s)

/-- Statements up to the end of the call, at most `limit` of them. -/
def loop (env : Setting σ) (fuel : Nat) (limit : Nat) (s : Session σ) :
    List StepRecord × Outcome × Session σ :=
  match limit with
  | 0 => ([], .outOfFuel, s)
  | limit + 1 =>
    match s.advance env fuel with
    | (r, some outcome, s) => (r.toList, outcome, s)
    | (r, none, s) =>
      let (records, outcome, s) := s.loop env fuel limit
      (r.toList ++ records, outcome, s)

/-- Start a call: a script that suspended itself goes on. -/
def start (s : Session σ) : Session σ := { s with machine := s.machine.resume }

/-- Run until the script ends, pauses, suspends itself, fails or is cancelled. -/
def run (env : Setting σ) (fuel limit : Nat) (s : Session σ) : Report × Session σ :=
  let started := s.clock
  let (records, outcome, s) := s.start.loop env fuel limit
  (⟨records, outcome, s.clock - started⟩, s)

/-- Run again and again, at most `calls` times; unless `always`, up to the first call that ends the
session. -/
def runs (env : Setting σ) (fuel limit : Nat) (always : Bool) (calls : Nat) (s : Session σ) :
    List (Report × Session σ) :=
  match calls with
  | 0 => []
  | calls + 1 =>
    let (report, s) := s.run env fuel limit
    if report.outcome.isFinal && !always then [(report, s)]
    else (report, s) :: s.runs env fuel limit always calls

end Session

end Stepwise
