import Stepwise.Assign

/-!
# Direct evaluation

The meaning of an evaluation without its machinery: from left to right, with the host asked and
functions called where they stand. There is no replay list, and nothing is evaluated twice. A
function of the script is given by its result here, so that an evaluation is a matter of its
expression alone.

`rounds` is how the same evaluation goes with a replay list: it starts from the left again each time
it has stopped for a function, with one result more. `Proofs/Replay` compares the two, and finds
that they give the same result and ask the host the same questions in the same order.

## Why a second evaluator

The evaluator of the machine cannot wait for a function in the middle of an expression. It stops
there, the function runs as a frame of its own, and the expression is evaluated again from the left.
That nobody can tell is the point of the replay list, and this module has what it has to be compared
with: an evaluator in which the question does not come up. The definitions here follow the syntax
and call nothing of the other evaluator but what has no calls in it, such as the reading of a scope,
the operators and the parts of an answer.

What a host was asked is not part of its answers. To speak of it, `Host.logged` keeps a log next to
the world of a host, and `DirectState.asked` is the log that direct evaluation writes.
-/

namespace Stepwise

/-- One question to a host: a request to a service, or for the time. Both change the world of a
host, so both have to be asked once, and in the same order, by any way to evaluate. -/
inductive Asked where
  | service (request : Request)
  | clock

namespace Host

variable {σ : Type}

/-- The host with a log of what it was asked. Reports are not logged, since no evaluation makes
them. -/
def logged (h : Host σ) : Host (σ × List Asked) where
  invoke request s :=
    let (answer, world) := h.invoke request s.1
    (answer, world, s.2 ++ [.service request])
  report text s := (h.report text s.1, s.2)
  now s :=
    let (clock, world) := h.now s.1
    (clock, world, s.2 ++ [.clock])

end Host

namespace EvalContext

variable {σ τ : Type}

def withHost (c : EvalContext σ) (host : Host τ) : EvalContext τ :=
  ⟨c.scope, c.isFunction, host⟩

theorem withHost_scope (c : EvalContext σ) (host : Host τ) :
    (c.withHost host).scope = c.scope := rfl

end EvalContext

/-- What a function of the script gives for its arguments. It may not depend on anything else here,
such as the time or the variables. -/
abbrev Functions := String → List Value → Value

/-- What direct evaluation leaves behind: the world of the host, and the two lists that the
comparison with the other evaluator is about. -/
structure DirectState (σ : Type) where
  world : σ
  /-- What the host was asked, in order. -/
  asked : List Asked
  /-- The functions that were called, in order. -/
  calls : List (String × List Value)

abbrev Direct (σ α : Type) := ExceptT Fault (StateM (DirectState σ)) α

namespace Direct

variable {σ : Type}

def ofExcept {α : Type} : Except Fault α → Direct σ α
  | .ok a => pure a
  | .error f => throw f

/-- Ask the host. The question is noted before the answer is looked at, so that a refusal counts as
well. -/
def ask {α : Type} (question : Asked) (host : σ → α × σ) : Direct σ α := do
  let s ← get
  let (answer, world) := host s.world
  set { s with world, asked := s.asked ++ [question] }
  return answer

/-- Call a declared service. With a wrong number of arguments the host is not asked. -/
def callWeb (c : EvalContext σ) (name : String) (signature : WebSignature) (args : List Value) :
    Direct σ Value := do
  if !signature.params.isEmpty && signature.params.length ≠ args.length then
    throw (.wrongArgCount name signature.params.length args.length)
  else
    let request := Web.request name signature args
    match ← ask (.service request) (c.host.invoke request) with
    | .ok v => return v
    | .error e => throw (.service signature.service e.message)

def callBuiltin (c : EvalContext σ) (b : Builtin) (args : List Value) : Direct σ Value := do
  if b = .now ∧ args.isEmpty then
    let clock ← ask .clock c.host.now
    ofExcept (b.apply clock args)
  else
    ofExcept (b.apply "" args)

/-- Make a call: a declared service, a function of the script, or a built-in. A name is looked for
in this order, so a declaration hides a function, and a function hides a built-in. -/
def invoke (c : EvalContext σ) (f : Functions) (name : String) (args : List Value) :
    Direct σ Value :=
  match c.scope.web? name with
  | some signature => callWeb c name signature args
  | none =>
    if c.isFunction name then do
      modify fun s => { s with calls := s.calls ++ [(name, args)] }
      return f name args
    else
      match Builtin.ofName? name with
      | some b => callBuiltin c b args
      | none => throw (.undefinedFunction name)

mutual

/-- The value of an expression. Logical operators leave out their right side where the left decides,
and give a truth value in any case. -/
def expr (c : EvalContext σ) (f : Functions) : Expr → Direct σ Value
  | .num x _ => return .num x
  | .bool b _ => return .bool b
  | .null _ => return .null
  | .noop _ => return .null
  | .string s _ => return .str s
  | .var name _ => ofExcept (c.scope.get name)
  | .binary left .and right _ => do
    let l ← expr c f left
    if l.isTruthy then return .bool (← expr c f right).isTruthy else return .bool false
  | .binary left .or right _ => do
    let l ← expr c f left
    if l.isTruthy then return .bool true else return .bool (← expr c f right).isTruthy
  | .binary left op right _ => do
    let l ← expr c f left
    let r ← expr c f right
    ofExcept (Value.binary op l r)
  | .unary op operand _ => do
    let v ← expr c f operand
    ofExcept (Value.unary op v)
  | .field object attr _ _ => do
    let v ← expr c f object
    ofExcept (v.field attr)
  | .index object index _ => do
    let v ← expr c f object
    let i ← expr c f index
    ofExcept (v.element i)
  | .list items _ => return .array (← exprs c f items)
  | .call name args _ => do
    let vs ← exprs c f args
    invoke c f name vs

def exprs (c : EvalContext σ) (f : Functions) : List Expr → Direct σ (List Value)
  | [] => return []
  | e :: rest => do
    let v ← expr c f e
    let vs ← exprs c f rest
    return v :: vs

end

/-! ## Assignments

Right-hand sides come first, then the targets with their indices, and an operator reads the old
value of its target behind those. -/

/-- What an expression on the left denotes. Indices are evaluated, and everything else is a name. -/
def target (c : EvalContext σ) (f : Functions) : Expr → Direct σ Target
  | .var name _ => return .var name
  | .field object attr _ _ => return (← target c f object).child (.field attr)
  | .index object index _ => do
    let t ← target c f object
    let i ← expr c f index
    return t.child (← ofExcept (Assign.keyOf i))
  | e => throw (.typeError (.notTarget e.line))

/-- The values for the targets of an assignment: one expression each, or the outputs of one
service. -/
def sources (c : EvalContext σ) (f : Functions) (targets values : List Expr) (strict : Bool) :
    Direct σ (List Value × List MissingOutput) := do
  if targets.length = values.length then
    return (← exprs c f values, [])
  else
    match Assign.decomposition? c targets values with
    | none => throw (.assignmentMismatch targets.length values.length)
    | some (name, args, signature) => do
      let vs ← exprs c f args
      let response ← invoke c f name vs
      let outs := Assign.outputsFor signature response targets.length
      match strict, Assign.missingOutputs name outs with
      | true, m :: _ => throw (.missingOutputParameter m.service m.param)
      | _, missing => return (Assign.outputValues outs, missing)

/-- The targets with their values, which an operator combines with the old ones. -/
def bindings (c : EvalContext σ) (f : Functions) (op : AssignOp) :
    List (Expr × Value) → Direct σ (List (Target × Value))
  | [] => return []
  | (e, v) :: rest => do
    let t ← target c f e
    let v ← match op.binary? with
      | none => pure v
      | some bin => ofExcept do Value.binary bin (← t.read c.scope) v
    let more ← bindings c f op rest
    return (t, v) :: more

def plan (c : EvalContext σ) (f : Functions) (targets : List Expr) (op : AssignOp)
    (values : List Expr) (strict : Bool) : Direct σ AssignPlan := do
  let (vs, missing) ← sources c f targets values strict
  let bound ← bindings c f op (targets.zip vs)
  return ⟨bound, missing⟩

end Direct

/-! ## Evaluation in rounds -/

namespace Eval

variable {σ α : Type}

/-- Evaluate from the left with the results so far. Where that stops for a function, add the result
of the function and evaluate again, up to a number of times. There is no result if the number is too
small for the functions that are called. -/
def rounds (e : Eval σ α) (f : Functions) :
    Nat → List Value → σ → Option (Except Fault α × σ)
  | 0, _, _ => none
  | n + 1, replay, world =>
    match e.run.run ⟨replay, 0, world⟩ with
    | (.ok a, s) => some (.ok a, s.world)
    | (.error (.fault x), s) => some (.error x, s.world)
    | (.error (.call name args), s) => rounds e f n (s.replay ++ [f name args]) s.world

end Eval

end Stepwise
