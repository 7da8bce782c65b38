import Stepwise.Assign
import Stepwise.Delay
import Stepwise.Program.Basic

/-!
# Simple statements

A simple statement runs in one go: it evaluates its expressions, once, and then writes to the store
what it has to write. It does not touch the position of the run; what it wants done about that is
its `Effect`. If its evaluation stops for a function call, nothing was written yet, and the
statement is executed again from the start once the call has returned.
-/

namespace Stepwise

structure Options where
  delayMultiplier : Float
  /-- Whether a declared output that is missing in a response is a fault. -/
  strictOutputs : Bool
  /-- How deep function calls nest, and subroutine calls. -/
  maxCallDepth : Nat

namespace Options

def default : Options := ⟨1.0, false, 256⟩

end Options

/-- What a run is given. It stays the same from start to end. -/
structure Setting (σ : Type) where
  program : Program
  options : Options
  host : Host σ

/-- What a run wants to be known without stopping for it. -/
inductive RunWarning where
  | missingOutput (line : Line) (service param : String)
  deriving Repr, DecidableEq

structure Store (σ : Type) where
  scope : Scope
  warnings : List RunWarning
  world : σ

namespace Interrupt

def isCall {α : Type} : Except Interrupt α → Bool
  | .error (.call ..) => true
  | _ => false

end Interrupt

inductive Effect where
  | value (v : Option Value)
  | jump (label : String)
  | sub (label : String)
  | ret (v : Option Value)
  | exit (status : Option Value)
  /-- The nanoseconds to wait, and the value that was given. -/
  | delay (nanoseconds : Nat) (v : Value)
  | suspend

/-- The end of an evaluation: its result, the results of calls to keep, and the store. -/
structure Evaluated (σ α : Type) where
  result : Except Interrupt α
  replay : List Value
  store : Store σ

namespace Evaluated

variable {σ α β : Type}

/-- Go on with a value that is there. What was written before a fault stays written. -/
def commit (e : Evaluated σ α) (k : α → Store σ → Except Fault β × Store σ) :
    Evaluated σ β :=
  match e.result with
  | .error i => { e with result := .error i }
  | .ok a =>
    match k a e.store with
    | (.ok b, store) => { e with result := .ok b, store }
    | (.error f, store) => { e with result := .error (.fault f), store }

end Evaluated

variable {σ : Type}

namespace Setting

def context (env : Setting σ) (s : Store σ) : EvalContext σ where
  scope := s.scope
  isFunction name := (env.program.function? name).isSome
  host := env.host

end Setting

namespace Store

/-- Evaluate with the results of calls so far, and say what to keep of them afterwards. -/
def run {β : Type} (env : Setting σ) (s : Store σ) (replay : List Value)
    (keeps : β → Bool) (e : EvalContext σ → StateM (EvalState σ) β) :
    β × List Value × Store σ :=
  let (b, after) := (e (env.context s)).run ⟨replay, 0, s.world⟩
  (b, if keeps b then after.replay else [], { s with world := after.world })

/-- Evaluate with the results of calls so far. They are kept only if the evaluation stops for
another call. -/
def eval {α : Type} (env : Setting σ) (s : Store σ) (replay : List Value)
    (e : EvalContext σ → Eval σ α) : Evaluated σ α :=
  let (result, replay, store) := s.run env replay Interrupt.isCall fun c => (e c).run
  { result, replay, store }

def pure {α : Type} (s : Store σ) (replay : List Value) (a : α) : Evaluated σ α :=
  ⟨.ok a, replay, s⟩

/-- Bind names to values and freeze them, one after the other. -/
def freeze (scope : Scope) : List (String × Value) → Except Fault Unit × Scope
  | [] => (.ok (), scope)
  | (name, v) :: rest =>
    match scope.set name v with
    | .error f => (.error f, scope)
    | .ok scope =>
      match scope.declareConst name with
      | .error f => (.error f, scope)
      | .ok scope => freeze scope rest

/-- The value of an input: what was given for it, else null. -/
def input (scope : Scope) (name : String) : Except Fault Value × Scope :=
  let opened := if scope.contains name then .ok scope else scope.set name .null
  match opened with
  | .error f => (.error f, scope)
  | .ok scope => (scope.get name, scope)

/-- The value that stands for several: itself if there is one, else an array. -/
def together : List Value → Value
  | [v] => v
  | many => .array many

end Store

namespace Stmt

/-- Whether a statement is structured, so that running it means running blocks. -/
def isStructured : Stmt → Bool
  | .compound .. | .condition .. | .cycle .. | .doCycle .. | .retry .. | .tryCatch ..
  | .included .. =>
    true
  | _ => false

/-- The error value that an error statement raises. -/
def raised (message : Value) (code : Option Value) : Fault :=
  .thrown (.error ⟨(code.map Value.text).getD Fault.userError, message.text⟩)

/-- Execute a simple statement; a structured one or a comment is none. -/
def execute (env : Setting σ) (s : Store σ) (replay : List Value) :
    Stmt → Option (Evaluated σ Effect)
  | .assign targets op values line =>
    some <|
      (s.eval env replay fun c => Assign.plan c targets op values env.options.strictOutputs).commit
      fun plan s =>
        -- noted before anything is written, so also if writing fails
        let warnings := s.warnings ++ plan.missing.map fun m =>
          .missingOutput line m.service m.param
        let (result, scope) := Target.bind s.scope plan.bindings
        (result.map fun _ => .value (some plan.recordValue), { s with scope, warnings })
  | .const bindings _ =>
    some <| (s.eval env replay fun c => Eval.exprs c (bindings.map ConstBinding.value)).commit
      fun values s =>
        let (result, scope) := Store.freeze s.scope ((bindings.map ConstBinding.name).zip values)
        (result.map fun _ => .value (some (Store.together values)), { s with scope })
  | .label .. => some (s.pure replay (.value none))
  | .noop .. => some (s.pure replay (.value none))
  | .function .. => some (s.pure replay (.value none))
  | .goto name _ => some (s.pure replay (.jump name))
  | .gosub name _ => some (s.pure replay (.sub name))
  | .ret none _ => some (s.pure replay (.ret none))
  | .ret (some value) _ =>
    some <| (s.eval env replay fun c => Eval.expr c value).commit fun v s =>
      (.ok (.ret (some v)), s)
  | .exit none _ => some (s.pure replay (.exit none))
  | .exit (some value) _ =>
    some <| (s.eval env replay fun c => Eval.expr c value).commit fun v s =>
      (.ok (.exit (some v)), s)
  | .error message code _ =>
    some <| (s.eval env replay fun c => do
        let m ← Eval.expr c message
        let k ← Eval.option c code
        return (m, k)).commit
      fun parts s => (.error (raised parts.1 parts.2), s)
  | .throw value _ =>
    some <| (s.eval env replay fun c => Eval.expr c value).commit fun v s => (.error (.thrown v), s)
  | .delay duration _ =>
    some <| (s.eval env replay fun c => Eval.expr c duration).commit fun v s =>
      match v.num? with
      | none => (.error (.typeError (.milliseconds v.typeName)), s)
      | some ms =>
        match Delay.ofMilliseconds? env.options.delayMultiplier ms with
        | none => (.error (.typeError (.delay ms)), s)
        | some ns => (.ok (.delay ns v), s)
  | .suspend _ => some (s.pure replay .suspend)
  | .status text _ =>
    some <| (s.eval env replay fun c => Eval.expr c text).commit fun v s =>
      (.ok (.value (some (.str v.text))), { s with world := env.host.report v.text s.world })
  | .declareWeb name params outputs calledAs url _ =>
    let declare (url : Option String) (s : Store σ) : Store σ :=
      { s with
        scope := s.scope.declareWeb (calledAs.getD name) ⟨name, params, outputs, url⟩ }
    match url with
    | none => some ((declare none s).pure replay (.value none))
    | some e =>
      some <| (s.eval env replay fun c => Eval.expr c e).commit fun v s =>
        (.ok (.value none), declare (some v.text) s)
  | .call name args _ =>
    some <| (s.eval env replay fun c => Eval.call c name args).commit fun v s =>
      (.ok (.value (some v)), s)
  | .input name _ =>
    some <| (s.pure replay ()).commit fun _ s =>
      let (result, scope) := Store.input s.scope name
      (result.map fun v => .value (some v), { s with scope })
  | .compound .. | .condition .. | .cycle .. | .doCycle .. | .retry .. | .tryCatch .. | .included ..
  | .comment .. | .doc .. => none

end Stmt

end Stepwise
