import Stepwise.Fault

/-!
# The scope of a run

One scope holds all variables of a run, the names among them that are constant, and the declared web
services. Constants refuse to be set or removed. Two operations do not ask: putting back what a
function parameter shadowed, and the note of the last failure, which has a variable of its own.
-/

namespace Stepwise

structure WebSignature where
  service : String
  params : List String
  outputs : List String
  url : Option String
  deriving Repr, DecidableEq

structure Scope where
  vars : Assoc Value
  constants : List String
  webs : Assoc WebSignature

namespace Scope

/-- The variable that holds the message of the last failure. -/
def exceptionMessage : String := "_ExceptionMessage"

def empty : Scope := ⟨[], [], []⟩

def ofInputs (inputs : Assoc Value) : Scope := ⟨inputs, [], []⟩

def get? (s : Scope) (name : String) : Option Value := Assoc.get? name s.vars

def get (s : Scope) (name : String) : Except Fault Value :=
  match s.get? name with
  | some v => .ok v
  | none => .error (.undefinedVariable name)

def contains (s : Scope) (name : String) : Bool := Assoc.contains name s.vars

def isConst (s : Scope) (name : String) : Bool := s.constants.contains name

/-- Bind a name without asking whether it is constant. -/
def force (s : Scope) (name : String) (v : Value) : Scope :=
  { s with vars := Assoc.put name v s.vars }

def set (s : Scope) (name : String) (v : Value) : Except Fault Scope :=
  if s.isConst name then .error (.assignToConstant name) else .ok (s.force name v)

/-- Freeze a name that is bound. -/
def declareConst (s : Scope) (name : String) : Except Fault Scope :=
  if s.contains name then
    -- freezing a name twice is no fault
    .ok (if s.isConst name then s else { s with constants := s.constants ++ [name] })
  else .error (.undefinedVariable name)

def declareWeb (s : Scope) (name : String) (signature : WebSignature) : Scope :=
  { s with webs := Assoc.put name signature s.webs }

def web? (s : Scope) (name : String) : Option WebSignature := Assoc.get? name s.webs

/-- The current value of a name that may be changed in place. -/
def updatable (s : Scope) (name : String) : Except Fault Value :=
  if s.isConst name then .error (.assignToConstant name) else s.get name

/-- Drop a binding and return its value; a constant stays. -/
def remove (s : Scope) (name : String) : Option Value × Scope :=
  if s.isConst name then (none, s)
  else (s.get? name, { s with vars := Assoc.erase name s.vars })

/-- Put back the binding, or the absence of one, that a parameter shadowed. -/
def restore (s : Scope) (name : String) (previous : Option Value) : Scope :=
  match previous with
  | some v => s.force name v
  | none => { s with vars := Assoc.erase name s.vars }

def restoreAll (s : Scope) (saved : List (String × Option Value)) : Scope :=
  saved.foldl (fun s entry => s.restore entry.1 entry.2) s

def noteFailure (s : Scope) (f : Failure) : Scope :=
  s.force exceptionMessage (.str f.message)

end Scope

end Stepwise
