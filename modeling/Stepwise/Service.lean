import Stepwise.Value.Basic

/-!
# Services and their host

A script calls web services by name; what answers is up to the host that runs the script. A host
also tells the time and takes the script's status reports. **A host is a state-passing function**:
all it may remember is in its state, so a run is a function of the script, its inputs and the host.
-/

namespace Stepwise

structure Request where
  /-- The name the service is declared with. -/
  service : String
  /-- The name the script calls it by. -/
  calledAs : String
  url : Option String
  /-- The arguments by parameter name. -/
  args : List (String × Value)

inductive ServiceError where
  | notConfigured (service : String)
  | failed (reason : String)

namespace ServiceError

def message : ServiceError → String
  | .notConfigured service => s!"no response configured for service '{service}'"
  | .failed reason => reason

end ServiceError

/-- What the outside does for a run; `σ` is all it remembers. -/
structure Host (σ : Type) where
  invoke : Request → σ → Except ServiceError Value × σ
  report : String → σ → σ
  now : σ → String × σ

namespace Host

/-- A host without services, with a clock that stands still. -/
def null {σ : Type} (clock : String) : Host σ where
  invoke request s := (.error (.notConfigured request.service), s)
  report _ s := s
  now s := (clock, s)

def atTime {σ : Type} (h : Host σ) (clock : String) : Host σ :=
  { h with now := fun s => (clock, s) }

end Host

/-! ## Canned answers -/

inductive Canned where
  | response (value : Value)
  | failure (reason : String)

/-- What a host with canned answers was asked and told, in order. -/
structure HostLog where
  requests : List Request
  statuses : List String

namespace HostLog

def empty : HostLog := ⟨[], []⟩

end HostLog

/-- Canned answers by service name. -/
abbrev CannedTable := Assoc Canned

namespace CannedTable

/-- The answer to a request: by the name the script uses, then by the declared one. -/
def answer (table : CannedTable) (request : Request) : Except ServiceError Value :=
  match (Assoc.get? request.calledAs table).or (Assoc.get? request.service table) with
  | some (.response value) => .ok value
  | some (.failure reason) => .error (.failed reason)
  | none => .error (.notConfigured request.service)

/-- A host that gives canned answers and keeps a log. -/
def host (table : CannedTable) (clock : String) : Host HostLog where
  invoke request log :=
    (table.answer request, { log with requests := log.requests ++ [request] })
  report text log := { log with statuses := log.statuses ++ [text] }
  now log := (clock, log)

end CannedTable

end Stepwise
