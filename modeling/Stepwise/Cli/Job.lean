import Stepwise.Session
import Stepwise.Text.Quoted

/-!
# Jobs

A job is a script that the command line runs. It goes one statement at a time, and each step says
what the outside is to do: print a line, let time pass, or wait for the Enter key. **What a job
prints does not depend on what is typed**, so the whole of it can be had without a terminal.
-/

namespace Stepwise

namespace StepRecord

/-- A record as the line that is printed for it. -/
def render (r : StepRecord) : String :=
  (Json.ofMembers [("line", .int r.line.toNat), ("value", (r.value.map Value.toJson).getD .null),
    ("next_line", .int r.nextLine.toNat)]).render

end StepRecord

namespace RunWarning

def message : RunWarning → String
  | .missingOutput line service param =>
    "MissingOutputParameter \x7b line: " ++ toString line.toNat ++ ", service: " ++
      Text.quoted service ++ ", param: " ++ Text.quoted param ++ " \x7d"

end RunWarning

namespace Cli

inductive Action where
  | out (line : String)
  | err (line : String)
  | wait (milliseconds : Nat)
  | enter

structure Job where
  env : Setting HostLog
  session : Session HostLog
  /-- Records are not printed. -/
  quiet : Bool

inductive Continuation where
  | more (job : Job)
  | exit (code : Nat)

namespace Job

/-- Micro-steps that one step of a job may take. -/
def patience : Nat := 10000000

/-- The job with the clock of its host set to a time. -/
def atTime (job : Job) (clock : String) : Job :=
  { job with env := { job.env with host := job.env.host.atTime clock } }

/-- The variables, and the request to press Enter. -/
def showVariables (scope : Scope) : List Action :=
  scope.vars.map (fun v => .err ("  " ++ v.1 ++ " = " ++ v.2.toJson.render)) ++
    [.err "Press Enter to continue", .enter]

/-- What is done when the session stops. -/
def settle (job : Job) (session : Session HostLog) : Outcome → List Action × Continuation
  | .completed status =>
    let text := match status with
      | some v => "Completed with status " ++ v.toJson.render
      | none => "Completed"
    let warnings := session.machine.store.warnings.map fun w =>
        Action.err ("warning: " ++ w.message)
    (.err text :: warnings, .exit 0)
  | .paused line =>
    (.err ("Paused before line " ++ toString line.toNat) :: showVariables session.machine.scope,
      .more { job with session := session.start })
  | .suspended line =>
    (.err ("Suspended; resumes at line " ++ toString line.toNat) ::
        showVariables session.machine.scope,
      .more { job with session := session.start })
  | .failed f => ([.err f.message], .exit 1)
  | .cancelled => ([.err "Run cancelled"], .exit 130)
  | .defect => ([.err "Internal error"], .exit 101)
  | .outOfFuel => ([], .more { job with session })

def step (job : Job) : List Action × Continuation :=
  let (record, outcome, session) := job.session.advance job.env patience
  let shown := match record with
    | some r => if job.quiet then [] else [Action.out r.render]
    | none => []
  let waited := session.clock - job.session.clock
  let pause := if waited = 0 then [] else [Action.wait waited]
  match outcome with
  | none => (shown ++ pause, .more { job with session })
  | some outcome =>
    let (actions, next) := job.settle session outcome
    (shown ++ pause ++ actions, next)

/-- The actions of at most `limit` steps, and the code at the end if it is reached. -/
def run (job : Job) : Nat → List Action × Option Nat
  | 0 => ([], none)
  | limit + 1 =>
    match job.step with
    | (actions, .exit code) => (actions, some code)
    | (actions, .more job) =>
      let (rest, code) := job.run limit
      (actions ++ rest, code)

end Job

end Cli

end Stepwise
