import Stepwise.Proofs.Ticked
import Mathlib.Logic.Relation

/-!
# Machines that a run comes to

What happens to a machine from one moment to the next is a micro-step, the note behind it that the
run is at its end, or something that the owner of the machine does between two calls (`Acts`). The
owner takes a delay, goes on from a pause, cancels, or operates on the variables (`Handled`,
`Scope.Operates`).

All notions of a run rest on that one relation. `Reachable` holds of the machines that a new one
comes to by any number of acts, whatever scope and world it starts with. Some statements need to
know more of a run than the machine it has come to, and each of the notions they use is tied to this
one:

* `Audited` keeps books on the calls that are open, and every reachable machine has them
  (`Reachable.audited`);
* `Logged` collects the warnings of a run, and every reachable machine has such a log
  (`Reachable.logged`);
* `Uses` lists what whole calls of the owner answer, and what is used is reachable
  (`Uses.reachable`).

What holds of new machines and is kept by acts holds of all reachable ones
(`Reachable.run_induction`), and for the activations it is enough that moves keep it
(`Reachable.activations`).
-/

namespace Stepwise

open Relation (ReflTransGen)

/-- What the owner of a machine can do to its scope. These are the operations that a scope has;
nothing else can be written to it from outside. -/
inductive Scope.Operates (s : Scope) : Scope → Prop where
  | set {name : String} {v : Value} {s' : Scope} (h : s.set name v = .ok s') : Operates s s'
  /-- A binding is taken for a change in place, and gets this value. -/
  | update {name : String} {old : Value} (h : s.updatable name = .ok old) (v : Value) :
      Operates s (s.force name v)
  | declareConst {name : String} {s' : Scope} (h : s.declareConst name = .ok s') : Operates s s'
  | declareWeb (name : String) (signature : WebSignature) : Operates s (s.declareWeb name signature)
  | remove (name : String) : Operates s (s.remove name).2

namespace Machine

variable {σ : Type} {env : Setting σ} {m m' : Machine σ}

/-- What the owner of a machine does to it between two calls. -/
inductive Handled (m : Machine σ) : Machine σ → Prop where
  | takeDelay : Handled m m.takeDelay.2
  | resume : Handled m m.resume
  | cancel : Handled m m.cancel
  | operate {s : Scope} (h : m.scope.Operates s) : Handled m (m.withScope s)

/-- What happens to a machine from one moment to the next: a micro-step, or something that its owner
does. -/
inductive Acts (env : Setting σ) (m : Machine σ) : Machine σ → Prop where
  | tick : Acts env m (m.tick env).2
  /-- The end of a run is noted behind the micro-step that brought it. -/
  | finish (finished : Bool) : Acts env m { m with finished }
  | handled {m' : Machine σ} (h : Handled m m') : Acts env m m'

/-- The machines of all runs of a program, with any inputs and any owner. Bounds do not come in
here, as a run that is cut off has come to one of these machines. -/
def Reachable (env : Setting σ) (m : Machine σ) : Prop :=
  ∃ (scope : Scope) (world : σ), ReflTransGen (Acts env) (Machine.new scope world) m

/-- A number of micro-steps. -/
def ticks (env : Setting σ) : Nat → Machine σ → Machine σ
  | 0, m => m
  | n + 1, m => ticks env n (m.tick env).2

theorem ticks_succ (env : Setting σ) (k : Nat) (m : Machine σ) :
    m.ticks env (k + 1) = ((m.ticks env k).tick env).2 := by
  induction k generalizing m with
  | zero => rfl
  | succ k ih => exact ih _

theorem ticks_acts (env : Setting σ) (k : Nat) (m : Machine σ) :
    ReflTransGen (Acts env) m (m.ticks env k) := by
  induction k generalizing m with
  | zero => exact .refl
  | succ k ih => exact .head .tick (ih _)

/-! ## Between two calls -/

namespace Handled

theorem activations (h : Handled m m') : m'.activations = m.activations := by
  cases h <;> rfl

theorem pending (h : Handled m m') : m'.pending = m.pending := by
  cases h <;> rfl

end Handled

namespace Acts

/-- Only micro-steps change the activations. So an invariant about positions has one case that is
not trivial. -/
theorem cases_activations (h : Acts env m m') :
    m'.activations = m.activations ∨ m' = (m.tick env).2 := by
  cases h with
  | tick => exact .inr rfl
  | finish => exact .inl rfl
  | handled h => exact .inl h.activations

theorem activations_moves (h : Acts env m m') : Moves env m.activations m'.activations := by
  obtain hsame | rfl := h.cases_activations
  · rw [hsame]
    exact .stay _
  · exact (tick_moved env m).moves

end Acts

/-! ## Reachable machines

Closure under all that a run can do, and the two inductions. Each invariant of the machine is proved
by one of them. -/

namespace Reachable

theorem new (scope : Scope) (world : σ) : Reachable env (Machine.new scope world) :=
  ⟨scope, world, .refl⟩

theorem acts (h : Reachable env m) (acts : ReflTransGen (Acts env) m m') : Reachable env m' := by
  obtain ⟨scope, world, run⟩ := h
  exact ⟨scope, world, run.trans acts⟩

theorem act (h : Reachable env m) (act : Acts env m m') : Reachable env m' :=
  h.acts (.single act)

theorem tick (h : Reachable env m) : Reachable env (m.tick env).2 :=
  h.act .tick

theorem finish (h : Reachable env m) (finished : Bool) : Reachable env { m with finished } :=
  h.act (.finish finished)

theorem handled (h : Reachable env m) (handled : Handled m m') : Reachable env m' :=
  h.act (.handled handled)

theorem ticks (h : Reachable env m) (n : Nat) : Reachable env (Machine.ticks env n m) :=
  h.acts (ticks_acts env n m)

/-- Induction along a run: what holds of every new machine and is kept by all acts holds of every
machine that a run comes to. -/
@[elab_as_elim]
theorem run_induction {motive : (m : Machine σ) → Reachable env m → Prop}
    (new : ∀ scope world, motive (Machine.new scope world) (.new scope world))
    (act : ∀ {m m' : Machine σ} (reached : Reachable env m) (act : Acts env m m'),
      motive m reached → motive m' (reached.act act))
    (h : Reachable env m) : motive m h := by
  obtain ⟨scope, world, run⟩ := h
  induction run with
  | refl => exact new scope world
  | tail run hact ih => exact act ⟨scope, world, run⟩ hact ih

/-- What holds at the start, and what every move keeps, holds of all activations. It serves
invariants that see nothing of a machine but its stacks, and these need no micro-step at all. -/
theorem activations {P : List Activation → Prop} (start : P [Activation.new .main []])
    (step : ∀ acts acts', Moves env acts acts' → P acts → P acts') (h : Reachable env m) :
    P m.activations := by
  induction h using run_induction with
  | new scope world => exact start
  | act _ hact ih => exact step _ _ hact.activations_moves ih

end Reachable

end Machine

end Stepwise
