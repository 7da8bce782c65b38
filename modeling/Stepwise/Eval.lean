import Stepwise.Builtin.Apply
import Stepwise.Script.Basic
import Stepwise.Web

/-!
# Evaluating expressions

Evaluation reads the scope and never writes it. A call of a service or of a built-in is made on the
spot. A call of a function of the script is not: its body has to run first, statement by statement,
so evaluation stops and asks for it. **The results of calls are kept in a replay list.** Once the
function has returned, its result is added and the whole evaluation starts again from the left,
taking the results of the earlier calls from the list in order, so no call is made twice.
-/

namespace Stepwise

/-- Why evaluation stops without a value. -/
inductive Interrupt where
  | fault (f : Fault)
  /-- A function of the script has to run first. -/
  | call (name : String) (args : List Value)

structure EvalContext (σ : Type) where
  scope : Scope
  /-- Whether the script declares a function of this name. -/
  isFunction : String → Bool
  host : Host σ

structure EvalState (σ : Type) where
  /-- Results of calls, in the order of the calls. -/
  replay : List Value
  /-- How many of the results were taken or added in this evaluation. -/
  cursor : Nat
  world : σ

/-- An evaluation. What it did to the replay list and to the host stays, however it ends. -/
abbrev Eval (σ α : Type) := ExceptT Interrupt (StateM (EvalState σ)) α

namespace Eval

variable {σ : Type}

def fault {α : Type} (f : Fault) : Eval σ α := throw (.fault f)

/-- A result that needs neither the replay list nor the host. -/
def ofExcept {α : Type} : Except Fault α → Eval σ α
  | .ok a => pure a
  | .error f => fault f

/-- Add the result of a call to the replay list. -/
def record (v : Value) : Eval σ Value := do
  modify fun s => { s with replay := s.replay ++ [v], cursor := s.cursor + 1 }
  return v

def callWeb (c : EvalContext σ) (name : String) (signature : WebSignature) (args : List Value) :
    Eval σ Value := do
  let s ← get
  let (result, world) := Web.invoke c.host name signature args s.world
  set { s with world }
  ofExcept result

/-- Call a built-in. Only `now` asks the host. -/
def callBuiltin (c : EvalContext σ) (b : Builtin) (args : List Value) : Eval σ Value := do
  if b = .now ∧ args.isEmpty then
    let s ← get
    let (clock, world) := c.host.now s.world
    set { s with world }
    ofExcept (b.apply clock args)
  else
    ofExcept (b.apply "" args)

/-- Make a call whose arguments are values: a declared service, a function of the script, or a
built-in, in this order. A result on the replay list is taken instead. -/
def invoke (c : EvalContext σ) (name : String) (args : List Value) : Eval σ Value := do
  let s ← get
  -- an evaluation that starts again has a result for each call up to the one it stopped for
  match s.replay[s.cursor]? with
  | some v =>
    set { s with cursor := s.cursor + 1 }
    return v
  | none =>
    match c.scope.web? name with
    | some signature => do record (← callWeb c name signature args)
    | none =>
      if c.isFunction name then throw (.call name args)
      else
        match Builtin.ofName? name with
        | some b => do record (← callBuiltin c b args)
        | none => fault (.undefinedFunction name)

mutual

/-- The value of an expression. The logical operators evaluate their second operand only if the
first does not decide. -/
def expr (c : EvalContext σ) : Expr → Eval σ Value
  | .num x _ => pure (.num x)
  | .bool b _ => pure (.bool b)
  | .null _ => pure .null
  | .noop _ => pure .null
  | .string s _ => pure (.str s)
  | .var name _ => ofExcept (c.scope.get name)
  | .binary left op right _ => do
    let l ← expr c left
    match op with
    | .and =>
      if l.isTruthy then return .bool (← expr c right).isTruthy else return .bool false
    | .or =>
      if l.isTruthy then return .bool true else return .bool (← expr c right).isTruthy
    | _ => do
      let r ← expr c right
      ofExcept (Value.binary op l r)
  | .unary op operand _ => do
    let v ← expr c operand
    ofExcept (Value.unary op v)
  | .field object attr _ _ => do
    let v ← expr c object
    ofExcept (v.field attr)
  | .index object index _ => do
    let v ← expr c object
    let i ← expr c index
    ofExcept (v.element i)
  | .list items _ => do
    let vs ← exprs c items
    return .array vs
  | .call name args _ => do
    let vs ← exprs c args
    invoke c name vs

def exprs (c : EvalContext σ) : List Expr → Eval σ (List Value)
  | [] => pure []
  | e :: rest => do
    let v ← expr c e
    let vs ← exprs c rest
    return v :: vs

end

/-- A call as a statement or the source of an assignment. -/
def call (c : EvalContext σ) (name : String) (args : List Expr) : Eval σ Value := do
  let vs ← exprs c args
  invoke c name vs

def option (c : EvalContext σ) : Option Expr → Eval σ (Option Value)
  | some e => do return some (← expr c e)
  | none => pure none

end Eval

end Stepwise
