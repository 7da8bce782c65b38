import Stepwise.Machine.Run

/-!
# The structured meaning of a script

A script without jumps has a meaning that needs no frames: a block runs its statements in turn, a
loop runs its body again while its test holds, a handler runs when the body of its try statement
fails, and a function call runs the body of the function in the middle of an evaluation. This file
says so, by recursion over blocks and statements. It is a second definition of what a script does,
and `Proofs/Refinement` says that the machine computes it.

**The meaning is a partial function, given by fuel.** Fuel bounds how deep blocks and calls nest,
how often a loop goes round and how often an evaluation is started again; `none` means that it was
not enough, and no amount of it is enough for a script that does not end. A jump has no structured
meaning: it is `none` as well, and so is a comment, which no linked script has.

An evaluation that needs a function of the script runs it and starts again with its result on the
replay list, as `Eval` has it; what is evaluated again reads the scope as the function left it. This
is the one place where the meaning is not what one would write down first, and it cannot be avoided:
a function may change a variable that the expression has read already.

## What it shares with the machine

Simple statements and expressions are those of the machine: `Stmt.execute` and `Eval.expr` are used
as they are, and so are `bindParams`, `headerLine` and `attemptsOf`. What is said anew is all that
the machine does with frames and activations: which statement comes next, when a body runs again,
where a fault goes, and when parameters are put back. A mistake in the shared part would show in the
laws about it (`Proofs/Replay`, `Proofs/Decomposition`) and not here.

Also part of the meaning are the lines that records and faults show. The line behind a statement is
that of the next statement of its block, or the closing line of the block; the line behind a return
is handed down from the call (`Around.back`).
-/

namespace Stepwise.BigStep

/-- How a piece of a script ends. A return and an exit end everything around them up to the function
and up to the run; a fault ends everything up to a handler. -/
inductive Outcome where
  | normal
  | ret (value : Option Value)
  | exit (status : Option Value)
  | fault (f : Failure)

/-- How an evaluation ends. A function that it calls can end the run, or fail; what it returns is no
end of the evaluation that called it, so there is no arm for that. -/
inductive Ended (α : Type) where
  | value (a : α)
  | exit (status : Option Value)
  | fault (f : Failure)

/-- What a run has shown and written so far. It is threaded through the meaning of all parts, and at
the end of a run it holds everything that the machine shows. -/
structure Progress (σ : Type) where
  records : List StepRecord
  store : Store σ
  /-- Nanoseconds that the last delay asks to wait. -/
  delay : Option Nat
  suspended : Bool

/-- What a piece of a script has to know of the units it runs in. It does not know their positions:
there are no jumps to look for labels. -/
structure Around where
  /-- How many units are running. -/
  depth : Nat
  /-- The line where the run goes on behind a return. -/
  back : Line

variable {σ : Type}

namespace Progress

def new (scope : Scope) (world : σ) : Progress σ := ⟨[], ⟨scope, [], world⟩, none, false⟩

def withStore (p : Progress σ) (store : Store σ) : Progress σ := { p with store }

def withScope (p : Progress σ) (scope : Scope) : Progress σ := p.withStore { p.store with scope }

def record (p : Progress σ) (r : StepRecord) : Progress σ :=
  { p with records := p.records ++ [r] }

/-- Put back what the parameters of a function shadowed. It is the scope of the progress that is
changed, so what the function has written to other variables stays. -/
def restored (p : Progress σ) (saved : List (String × Option Value)) : Progress σ :=
  p.withScope (p.store.scope.restoreAll saved)

/-- Note a failure, as every fault does when it is raised. A script can read the message of the last
failure, so this is part of the meaning and not of how a debugger shows it. -/
def noted (p : Progress σ) (f : Failure) : Progress σ := p.withScope (p.store.scope.noteFailure f)

end Progress

/-- The meaning of a piece of a script: how it ends and what there is then, or `none` if the fuel
did not last. -/
abbrev Meaning (σ : Type) := Progress σ → Option (Outcome × Progress σ)

/-- The meaning of an evaluation. It differs from that of a piece of a script in that it has a value
and cannot return. -/
abbrev Evaluation (σ α : Type) := Progress σ → Option (Ended α × Progress σ)

/-- One pass of an evaluation over the results of earlier calls: the line that a fault or a call in
it shows, the result, the results of calls to keep, and the store. `none` is for what has no pass,
such as a structured statement that is taken for a simple one. -/
abbrev Pass (σ α : Type) :=
  List Value → Store σ → Option (Line × Except Interrupt α × List Value × Store σ)

namespace Evaluation

variable {α : Type}

/-- The fault of the statement on a line. Raising it notes it, whether or not a handler takes it
later. -/
def fail (line : Line) (f : Fault) : Evaluation σ α :=
  fun p => some (.fault ⟨line, f⟩, p.noted ⟨line, f⟩)

/-- Go on with the value of an evaluation. Its other ends pass by what comes next. -/
def andThen (e : Evaluation σ α) (k : α → Meaning σ) : Meaning σ := fun p =>
  match e p with
  | none => none
  | some (.value a, p) => k a p
  | some (.exit status, p) => some (.exit status, p)
  | some (.fault f, p) => some (.fault f, p)

end Evaluation

namespace Meaning

/-- Nothing is left to do. It is what an empty list of statements means. -/
def done : Meaning σ := fun p => some (.normal, p)

/-- Go on behind a piece that ended normally. All other ends pass by what comes next, up to whatever
takes them. -/
def andThen (first second : Meaning σ) : Meaning σ := fun p =>
  match first p with
  | some (.normal, p) => second p
  | other => other

end Meaning

/-! ## Evaluations

Every evaluation of a script, whether it belongs to a simple statement or to a header, is made in
passes by the same function. `call` is a parameter of it because the body of a function is a block,
and the meaning of blocks comes last. -/

/-- Evaluate in passes. A pass that stops for a function of the script is followed by the call, and
then by another pass with the result of the call added to the replay list. The results of calls are
those that the pass has kept, so that a pass which gives up on them starts from nothing. -/
def evaluate {α : Type} (call : Line → String → List Value → Evaluation σ Value)
    (pass : Pass σ α) : Nat → List Value → Evaluation σ α
  | 0, _, _ => none
  | n + 1, replay, p =>
    match pass replay p.store with
    | none => none
    | some (_, .ok a, _, store) => some (.value a, p.withStore store)
    | some (line, .error (.fault f), _, store) => Evaluation.fail line f (p.withStore store)
    | some (line, .error (.call name args), replay, store) =>
      match call line name args (p.withStore store) with
      | none => none
      | some (.value v, p) => evaluate call pass n (replay ++ [v]) p
      | some (.exit status, p) => some (.exit status, p)
      | some (.fault f, p) => some (.fault f, p)

/-- Call a function of the script that a statement on the line `back` needs. `run` is the meaning of
blocks. What the parameters shadow comes back when the body is left, but not when the run ends
there. -/
def call (env : Setting σ) (run : Around → Block → Meaning σ) (depth : Nat) (back line : Line)
    (name : String) (args : List Value) : Evaluation σ Value := fun p =>
  match env.program.function? name with
  | none => Evaluation.fail line (.undefinedFunction name) p
  | some d =>
    if env.options.maxCallDepth < depth then
      Evaluation.fail line (.callDepthExceeded env.options.maxCallDepth) p
    else if d.params.length ≠ args.length then
      Evaluation.fail line (.wrongArgCount name d.params.length args.length) p
    else
      match Machine.bindParams p.store.scope [] (d.params.zip args) with
      | (.error f, scope) => Evaluation.fail line f (p.withScope scope)
      | (.ok saved, scope) =>
        match run ⟨depth + 1, back⟩ d.body (p.withScope scope) with
        | none => none
        | some (.normal, p) => some (.value .null, p.restored saved)
        | some (.ret v, p) => some (.value (v.getD .null), p.restored saved)
        | some (.exit status, p) => some (.exit status, p)
        | some (.fault f, p) => some (.fault f, if f.fault.isTerminal then p else p.restored saved)

/-! ## Passes over the parts of statements

Each of these is what one micro-step of the machine evaluates, written without the machine. The line
is found out by the pass, since a condition shows that of the last test that was made. -/

/-- A pass over a simple statement; one that is not simple has none. The statement is executed as
the machine executes it, up to what it asks for. -/
def simplePass (env : Setting σ) (s : Stmt) : Pass σ Effect := fun replay store =>
  (s.execute env store replay).map fun r => (s.line, r.result, r.replay, r.store)

/-- The block of the first branch whose test holds, else the one of `otherwise`; and the line of the
last test that was made. -/
def chosenBlock (c : EvalContext σ) (line : Line) (otherwise : Option Block) :
    List Branch → StateM (EvalState σ) (Line × Except Interrupt (Option Block))
  | [] => return (line, .ok otherwise)
  | .mk test block :: rest => do
    match ← (Eval.expr c test).run with
    | .error i => return (Machine.headerLine test line, .error i)
    | .ok v =>
      if v.isTruthy then return (Machine.headerLine test line, .ok (some block))
      else chosenBlock c line otherwise rest

/-- A pass over the tests of a condition, up to the first that holds. All of them are one evaluation
with one replay list, so a call in a later test starts the earlier tests again. -/
def branchPass (env : Setting σ) (branches : List Branch) (otherwise : Option Block)
    (line : Line) : Pass σ (Option Block) := fun replay store =>
  let ((testLine, result), replay, store) :=
    store.run env replay (fun r => Interrupt.isCall r.2) fun c =>
      chosenBlock c line otherwise branches
  some (testLine, result, replay, store)

/-- A pass over the test of a loop or retry. What it comes to is whether the test holds, since no
more is made of the value. -/
def testPass (env : Setting σ) (test : Expr) (line : Line) : Pass σ Bool := fun replay store =>
  some (Machine.headerLine test line,
    store.run env replay Interrupt.isCall fun c =>
      ExceptT.run do return (← Eval.expr c test).isTruthy)

/-- A pass over the number of attempts of a retry. That the value is no such number is a fault of
the pass, on the line of its header. -/
def attemptsPass (env : Setting σ) (attempts : Expr) (line : Line) : Pass σ UInt32 :=
  fun replay store =>
    some (Machine.headerLine attempts line,
      store.run env replay Interrupt.isCall fun c =>
        ExceptT.run do Eval.ofExcept (Machine.attemptsOf (← Eval.expr c attempts)))

/-! ## Statements -/

/-- What a simple statement on `line` comes to; `next` is the line behind it. An exit shows the last
line of the program, wherever it stands. -/
def finish (env : Setting σ) (around : Around) (line next : Line) : Effect → Meaning σ
  | .value v, p => some (.normal, p.record ⟨line, v, next⟩)
  | .delay ns v, p => some (.normal, { p with delay := some ns }.record ⟨line, some v, next⟩)
  | .suspend, p => some (.normal, { p with suspended := true }.record ⟨line, none, next⟩)
  | .ret v, p => some (.ret v, p.record ⟨line, v, around.back⟩)
  | .exit status, p => some (.exit status, p.record ⟨line, status, env.program.root.endLine⟩)
  | .jump _, _ => none
  | .sub _, _ => none

/-- Test, and while the test holds run the body and test again. The fuel bounds how often it goes
round, and is that of the block around it. -/
def loop (test : Evaluation σ Bool) (body : Meaning σ) : Nat → Meaning σ
  | 0 => fun _ => none
  | n + 1 =>
    test.andThen fun again => if again then body.andThen (loop test body n) else Meaning.done

/-- Run the body for the given time. It starts over, while there are attempts left, if it fails or
if the test behind it holds. A fault that no handler may take ends it whatever is left. -/
def attempt (test : Option (Evaluation σ Bool)) (body : Meaning σ) (max : UInt32) :
    Nat → UInt32 → Meaning σ
  | 0, _ => fun _ => none
  | n + 1, time => fun p =>
    match body p with
    | some (.normal, p) =>
      match test with
      | none => some (.normal, p)
      | some test =>
        test.andThen
          (fun again =>
            if again && time < max then attempt (some test) body max n (time + 1) else Meaning.done)
          p
    | some (.fault f, p) =>
      if !f.fault.isTerminal && time < max then attempt test body max n (time + 1) p
      else some (.fault f, p)
    | other => other

/-- Run the handler if the body fails. The handler sees the fault; that its variable is a constant
is a fault of its own. -/
def guarded (body : Meaning σ) (catchVar : Option String) (handler : Meaning σ) (line : Line) :
    Meaning σ := fun p =>
  match body p with
  | some (.fault f, p) =>
    if f.fault.isTerminal then some (.fault f, p)
    else
      match catchVar with
      | none => handler p
      | some name =>
        match p.store.scope.set name f.fault.payload with
        | .ok scope => handler (p.withScope scope)
        | .error e => some (.fault ⟨line, e⟩, p.noted ⟨line, e⟩)
  | other => other

/-- The meaning of a statement, `next` being the line behind it and `run` the meaning of blocks. One
fuel serves the evaluation in its header and the rounds of its body. -/
def stmt (env : Setting σ) (run : Around → Block → Meaning σ) (n : Nat) (around : Around)
    (next : Line) (s : Stmt) : Meaning σ :=
  let eval {α : Type} (pass : Pass σ α) : Evaluation σ α :=
    evaluate (call env run around.depth s.line) pass n []
  match s with
  | .compound block => run around block
  | .included _ body _ => run around body
  | .condition branches otherwise line =>
    (eval (branchPass env branches otherwise line)).andThen fun chosen =>
      match chosen with
      | some block => run around block
      | none => Meaning.done
  | .cycle test body line => loop (eval (testPass env test line)) (run around body) n
  | .doCycle body test line =>
    (run around body).andThen (loop (eval (testPass env test line)) (run around body) n)
  | .retry attempts body test line =>
    (eval (attemptsPass env attempts line)).andThen fun max =>
      attempt (test.map fun t => eval (testPass env t line)) (run around body) max n 1
  | .tryCatch body catchVar handler line =>
    guarded (run around body) catchVar (run around handler) line
  | s => (eval (simplePass env s)).andThen (finish env around s.line next)

/-- The meaning of statements in turn, up to the closing line of their block. Each statement is told
the line behind it, which is the line of the next one. -/
def stmts (env : Setting σ) (run : Around → Block → Meaning σ) (n : Nat) (around : Around)
    (endLine : Line) : List Stmt → Meaning σ
  | [] => Meaning.done
  | s :: rest =>
    (stmt env run n around ((rest.head?.map Stmt.line).getD endLine) s).andThen
      (stmts env run n around endLine rest)

/-- The meaning of a block. Only here is fuel spent on depth; loops and evaluations get the same
fuel anew in every round. -/
def block (env : Setting σ) : Nat → Around → Block → Meaning σ
  | 0, _, _ => fun _ => none
  | n + 1, around, b => stmts env (block env n) n around b.endLine b.body

/-! ## Programs -/

/-- How the run ends if its main block ends so. A return of the main program ends it as the end of
the program does. -/
def Outcome.ending : Outcome → Machine.RunEnd
  | .fault f => .failed f
  | _ => .ended

/-- The exit status of the run if its main block ends so. A return of the main program sets it,
too. -/
def Outcome.exitStatus : Outcome → Option Value
  | .ret value => value
  | .exit status => status
  | _ => none

/-- A run from start to end: all that the machine shows on the way, and all that it leaves
behind. -/
structure Run (σ : Type) where
  records : List StepRecord
  ending : Machine.RunEnd
  store : Store σ
  exitStatus : Option Value

/-- The run of a program: its main block, with nothing around it. A return of the main block ends
the run with a value, just as an exit does. -/
def program (env : Setting σ) (n : Nat) (scope : Scope) (world : σ) : Option (Run σ) :=
  let root := env.program.root
  (block env n ⟨1, root.endLine⟩ root (Progress.new scope world)).map fun (o, p) =>
    ⟨p.records, o.ending, p.store, o.exitStatus⟩

end Stepwise.BigStep
