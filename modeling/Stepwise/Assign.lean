import Stepwise.Eval

/-!
# Assignments

An assignment runs in two halves. `plan` evaluates everything, the values as well as the indices in
the targets, without touching the scope; it can therefore stop for a function call and start again.
`bind` then writes the values one after the other. **What was written before a failure stays**: the
earlier targets, and on the way down a path the containers that were made for it.
-/

namespace Stepwise

/-- One step of a path into a value. -/
inductive Key where
  | field (name : String)
  | index (i : Int)
  deriving Repr, DecidableEq

/-- What an assignment writes to. -/
inductive Target where
  | var (name : String)
  | path (root : String) (keys : List Key)
  deriving Repr, DecidableEq

namespace Target

def root : Target → String
  | .var name => name
  | .path root _ => root

def keys : Target → List Key
  | .var _ => []
  | .path _ keys => keys

def child (t : Target) (key : Key) : Target := .path t.root (t.keys ++ [key])

end Target

structure MissingOutput where
  service : String
  param : String
  deriving Repr, DecidableEq

/-- An assignment with everything evaluated. -/
structure AssignPlan where
  bindings : List (Target × Value)
  missing : List MissingOutput

namespace AssignPlan

/-- The value that the record of the assignment shows: the one assigned, or an array of several. -/
def recordValue (p : AssignPlan) : Value :=
  match p.bindings with
  | [(_, v)] => v
  | many => .array (many.map (·.2))

end AssignPlan

/-! ## Reading and writing along a path -/

namespace Value

/-- One step down. An index is looked up as the number it is. -/
def at? (v : Value) : Key → Except Fault Value
  | .field name => v.field name
  | .index i => v.element (.num (Float.ofInt i))

def atPath (v : Value) : List Key → Except Fault Value
  | [] => .ok v
  | key :: rest => do atPath (← v.at? key) rest

/-- A fresh container for a key: an array for an index, else a struct. -/
def emptyFor : Option Key → Value
  | some (.index _) => .array []
  | _ => .struct []

/-- A null that is written into becomes a container. -/
def opened (slot : Value) (key : Key) : Value :=
  match slot with
  | .null => emptyFor (some key)
  | _ => slot

/-- Write `v` at the end of a path into `slot`. Containers on the way are made where they are
missing: a null, an absent field, or the place just behind the last element. The second component is
the slot afterwards, also if writing failed further down. -/
def setPath (slot : Value) (v : Value) : List Key → Except Fault Unit × Value
  | [] => (.ok (), v)
  | key :: rest =>
    match slot.opened key, key with
    | .struct fields, .field name =>
      match rest with
      | [] => (.ok (), .struct (Assoc.put name v fields))
      | _ =>
        let child := (Assoc.get? name fields).getD (emptyFor rest.head?)
        let (result, child) := setPath child v rest
        (result, .struct (Assoc.put name child fields))
    | .array items, .index i =>
      -- the place just behind the last element is allowed, which makes an array grow one by one
      if i < 0 ∨ (items.length : Int) < i then
        (.error (.indexOutOfRange i items.length), .array items)
      else
        let child := (items[i.toNat]?).getD (emptyFor rest.head?)
        let (result, child) := setPath child v rest
        if i.toNat < items.length then (result, .array (items.set i.toNat child))
        else (result, .array (items ++ [child]))
    | other, .field name => (.error (.typeError (.notSettable name other.typeName)), other)
    | other, .index _ => (.error (.typeError (.notIndexable other.typeName)), other)

end Value

namespace Target

def read (s : Scope) (t : Target) : Except Fault Value := do
  Value.atPath (← s.get t.root) t.keys

/-- Write one value. The scope afterwards is returned also if writing failed. -/
def write (s : Scope) (t : Target) (v : Value) : Except Fault Unit × Scope :=
  match t with
  | .var name =>
    match s.set name v with
    | .ok s => (.ok (), s)
    | .error f => (.error f, s)
  | .path root keys =>
    let created : Except Fault Scope :=
      -- a missing variable is made first, and stays if the write fails further down
      if s.contains root then .ok s else s.set root (Value.emptyFor keys.head?)
    match created with
    | .error f => (.error f, s)
    | .ok s =>
      match s.updatable root with
      | .error f => (.error f, s)
      | .ok slot =>
        let (result, slot) := slot.setPath v keys
        (result, s.force root slot)

/-- Write values one after the other, up to the first that fails. -/
def bind (s : Scope) : List (Target × Value) → Except Fault Unit × Scope
  | [] => (.ok (), s)
  | (t, v) :: rest =>
    match t.write s v with
    | (.ok (), s) => bind s rest
    | (.error f, s) => (.error f, s)

end Target

/-! ## Planning -/

namespace Assign

variable {σ : Type}

/-- The key that an index value stands for: text names a field, and anything else must be an
index. -/
def keyOf : Value → Except Fault Key
  | .str name => .ok (.field name)
  | v => v.toIndex.map .index

/-- The target that an expression denotes; indices are evaluated from the outside of the path in. -/
def target (c : EvalContext σ) : Expr → Eval σ Target
  | .var name _ => pure (.var name)
  | .field object attr _ _ => do
    let t ← target c object
    return t.child (.field attr)
  | .index object index _ => do
    let t ← target c object
    let i ← Eval.expr c index
    return t.child (← Eval.ofExcept (keyOf i))
  | e => Eval.fault (.typeError (.notTarget e.line))

/-- Which service an assignment of several targets from one value takes apart, if it does. -/
def decomposition? (c : EvalContext σ) (targets values : List Expr) :
    Option (String × List Expr × WebSignature) :=
  match values with
  | [.call name args _] =>
    if targets.length < 2 then none
    else (c.scope.web? name).map fun signature => (name, args, signature)
  | _ => none

structure Output where
  /-- The name of the output; targets behind the declared ones go by their number. -/
  param : String
  value : Option Value

/-- The output that is declared for each of `count` targets; targets behind the declared outputs
have none. -/
def declaredFor (signature : WebSignature) (count : Nat) : List (Option String) :=
  (List.range count).map fun i => signature.outputs[i]?

/-- Hand out the values of a response to the targets from number `i` on. A target with a declared
output takes the next value; a target without one takes none and leaves them to those behind it. -/
def handOut (i : Nat) : List (Option String) → List (Option Value) → List Output
  | [], _ => []
  | some param :: rest, found => ⟨param, found.head?.join⟩ :: handOut (i + 1) rest found.tail
  | none :: rest, found => ⟨"#" ++ toString (i + 1), none⟩ :: handOut (i + 1) rest found

/-- The outputs for `count` targets. Only those are looked up in the response that some target is
declared for. -/
def outputsFor (signature : WebSignature) (response : Value) (count : Nat) : List Output :=
  let declared := declaredFor signature count
  handOut 0 declared (Web.outputs response (declared.filterMap id))

/-- The values for the targets, with an empty text for what is missing. -/
def outputValues (outs : List Output) : List Value :=
  outs.map fun o => o.value.getD (.str "")

def missingOutputs (service : String) (outs : List Output) : List MissingOutput :=
  (outs.filter fun o => o.value.isNone).map fun o => ⟨service, o.param⟩

/-- The values on the right of an assignment, and the outputs that were missing among them. If
`strict`, a missing output is a fault. -/
def sources (c : EvalContext σ) (targets values : List Expr) (strict : Bool) :
    Eval σ (List Value × List MissingOutput) := do
  -- a single target takes the response of a service as it is
  if targets.length = values.length then
    return (← Eval.exprs c values, [])
  else
    match decomposition? c targets values with
    | none => Eval.fault (.assignmentMismatch targets.length values.length)
    | some (name, args, signature) => do
      let response ← Eval.call c name args
      let outs := outputsFor signature response targets.length
      let missing := missingOutputs name outs
      match strict, missing with
      | true, m :: _ => Eval.fault (.missingOutputParameter m.service m.param)
      | _, _ => return (outputValues outs, missing)

/-- Pair each target with its value, combined with the old one if the operator says so. -/
def bindings (c : EvalContext σ) (op : AssignOp) :
    List (Expr × Value) → Eval σ (List (Target × Value))
  | [] => pure []
  | (e, v) :: rest => do
    let t ← target c e
    let v ← match op.binary? with
      | none => pure v
      | some bin => Eval.ofExcept do Value.binary bin (← t.read c.scope) v
    let more ← bindings c op rest
    return (t, v) :: more

def plan (c : EvalContext σ) (targets : List Expr) (op : AssignOp) (values : List Expr)
    (strict : Bool) : Eval σ AssignPlan := do
  let (vs, missing) ← sources c targets values strict
  let bound ← bindings c op (targets.zip vs)
  return ⟨bound, missing⟩

end Assign

end Stepwise
