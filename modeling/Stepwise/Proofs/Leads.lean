import Stepwise.Machine.Run

/-!
# Many micro-steps

`Leads` is what a machine does in any number of micro-steps, with the records it shows on the way.
It stops where a run stops: a machine that is finished leads nowhere but to itself. Runs are bounded
by fuel and by a number of records, so what is known of a run is known for all bounds that are large
enough (`RunsTo.run_eq`); with micro-steps in between nothing has to be counted.

There are three levels: micro-steps (`Leads`), steps (`StepsTo`) and runs (`RunsTo`). A proof that
follows a program works on the first, where pieces are put together by `trans`, and goes up to the
others at the end. `Proofs/Simulation` does so for a single run, and `Proofs/Driving` compares two.
-/

namespace Stepwise.Machine

variable {σ : Type} {env : Setting σ}

/-! ## Micro-steps -/

/-- The machine behind a record: it is finished if no unit is left. A step does this after the
micro-step that showed the record, so it has to be done between micro-steps, too. -/
def settled (m : Machine σ) : Machine σ :=
  { m with finished := m.finished || m.activations.isEmpty }

/-- The micro-steps from one machine to another, and the records on the way. The last micro-step of
a run is not among them, as it shows that the run is over. -/
inductive Leads (env : Setting σ) : Machine σ → List StepRecord → Machine σ → Prop where
  | refl (m : Machine σ) : Leads env m [] m
  | running {m m₁ m₂ : Machine σ} {rs : List StepRecord} (going : m.finished = false)
      (ticks : m.tick env = (.running, m₁)) (rest : Leads env m₁ rs m₂) : Leads env m rs m₂
  | record {m m₁ m₂ : Machine σ} {r : StepRecord} {rs : List StepRecord}
      (going : m.finished = false)
      (ticks : m.tick env = (.record r, m₁)) (rest : Leads env m₁.settled rs m₂) :
      Leads env m (r :: rs) m₂

namespace Leads

theorem trans {m m₁ m₂ : Machine σ} {rs rs' : List StepRecord} (h : Leads env m rs m₁)
    (h' : Leads env m₁ rs' m₂) : Leads env m (rs ++ rs') m₂ := by
  induction h with
  | refl => exact h'
  | running going ticks _ ih => exact .running going ticks (ih h')
  | record going ticks _ ih => exact .record going ticks (ih h')

theorem tick_running {m m₁ : Machine σ} (going : m.finished = false)
    (ticks : m.tick env = (.running, m₁)) : Leads env m [] m₁ :=
  .running going ticks (.refl _)

theorem tick_record {m m₁ : Machine σ} {r : StepRecord} (going : m.finished = false)
    (ticks : m.tick env = (.record r, m₁)) : Leads env m [r] m₁.settled :=
  .record going ticks (.refl _)

end Leads

/-! ## From micro-steps to steps -/

/-- A step comes to this result, with all fuel that is enough. Enough fuel for one part of a run and
enough for another are put together by taking both. -/
def StepsTo (env : Setting σ) (m : Machine σ) (s : Step) (m' : Machine σ) : Prop :=
  ∃ bound, ∀ fuel, bound ≤ fuel → m.step env fuel = (s, m')

namespace StepsTo

theorem running {m m₁ m' : Machine σ} {s : Step} (going : m.finished = false)
    (ticks : m.tick env = (.running, m₁)) (h : StepsTo env m₁ s m') : StepsTo env m s m' := by
  obtain ⟨bound, h⟩ := h
  refine ⟨bound + 1, fun fuel hle => ?_⟩
  obtain ⟨fuel, rfl⟩ := Nat.exists_eq_add_of_le' (Nat.le_of_add_left_le hle)
  rw [step, going, ticks]
  exact h fuel (Nat.le_of_succ_le_succ hle)

theorem of_succ {m m' : Machine σ} {s : Step} (h : ∀ fuel, m.step env (fuel + 1) = (s, m')) :
    StepsTo env m s m' := by
  refine ⟨1, fun fuel hle => ?_⟩
  obtain ⟨fuel, rfl⟩ := Nat.exists_eq_add_of_le' hle
  exact h fuel

theorem record {m m₁ : Machine σ} {r : StepRecord} (going : m.finished = false)
    (ticks : m.tick env = (.record r, m₁)) : StepsTo env m (.record r) m₁.settled := by
  refine .of_succ fun fuel => ?_
  rw [step, going, ticks]
  rfl

theorem ended {m m₁ : Machine σ} (going : m.finished = false)
    (ticks : m.tick env = (.done, m₁)) :
    StepsTo env m .ended { m₁ with finished := true } := by
  refine .of_succ fun fuel => ?_
  rw [step, going, ticks]
  rfl

theorem failed {m m₁ : Machine σ} {f : Failure} (going : m.finished = false)
    (ticks : m.tick env = (.failed f, m₁)) :
    StepsTo env m (.failed f) { m₁ with finished := true } := by
  refine .of_succ fun fuel => ?_
  rw [step, going, ticks]
  rfl

theorem finished {m : Machine σ} (h : m.finished = true) : StepsTo env m .ended m := by
  refine ⟨0, fun fuel _ => ?_⟩
  rw [step.eq_def, h]
  rfl

end StepsTo

/-! ## From steps to runs -/

/-- A run shows these records and comes to this end. Neither a defect nor a bound that was reached
is an end here. -/
inductive RunsTo (env : Setting σ) :
    Machine σ → List StepRecord → RunEnd → Machine σ → Prop where
  | ended {m m' : Machine σ} (h : StepsTo env m .ended m') : RunsTo env m [] .ended m'
  | failed {m m' : Machine σ} {f : Failure} (h : StepsTo env m (.failed f) m') :
      RunsTo env m [] (.failed f) m'
  | record {m m₁ m' : Machine σ} {r : StepRecord} {rs : List StepRecord} {e : RunEnd}
      (h : StepsTo env m (.record r) m₁) (rest : RunsTo env m₁ rs e m') :
      RunsTo env m (r :: rs) e m'

namespace RunsTo

theorem running {m m₁ m' : Machine σ} {rs : List StepRecord} {e : RunEnd}
    (going : m.finished = false) (ticks : m.tick env = (.running, m₁))
    (h : RunsTo env m₁ rs e m') : RunsTo env m rs e m' := by
  cases h with
  | ended h => exact .ended (.running going ticks h)
  | failed h => exact .failed (.running going ticks h)
  | record h rest => exact .record (.running going ticks h) rest

/-- What a machine runs to after micro-steps, it runs to. The records on the way come first. -/
theorem of_leads {m m₁ m' : Machine σ} {rs rs' : List StepRecord} {e : RunEnd}
    (h : Leads env m rs m₁) (h' : RunsTo env m₁ rs' e m') : RunsTo env m (rs ++ rs') e m' := by
  induction h with
  | refl => exact h'
  | running going ticks _ ih => exact .running going ticks (ih h')
  | record going ticks _ ih => exact .record (.record going ticks) (ih h')

/-- The bounded run is this one as soon as its bounds are large enough. -/
theorem run_eq {m m' : Machine σ} {rs : List StepRecord} {e : RunEnd} (h : RunsTo env m rs e m') :
    ∃ bound, ∀ fuel limit, bound ≤ fuel → bound ≤ limit →
      m.run env fuel limit = (rs, e, m') := by
  induction h with
  | ended h =>
    obtain ⟨bound, h⟩ := h
    refine ⟨bound + 1, fun fuel limit hf hl => ?_⟩
    obtain ⟨limit, rfl⟩ := Nat.exists_eq_add_of_le' (Nat.le_of_add_left_le hl)
    rw [run, h fuel (Nat.le_of_succ_le hf)]
  | failed h =>
    obtain ⟨bound, h⟩ := h
    refine ⟨bound + 1, fun fuel limit hf hl => ?_⟩
    obtain ⟨limit, rfl⟩ := Nat.exists_eq_add_of_le' (Nat.le_of_add_left_le hl)
    rw [run, h fuel (Nat.le_of_succ_le hf)]
  | record h _ ih =>
    obtain ⟨bound, h⟩ := h
    obtain ⟨bound', ih⟩ := ih
    refine ⟨bound + bound' + 1, fun fuel limit hf hl => ?_⟩
    obtain ⟨limit, rfl⟩ := Nat.exists_eq_add_of_le' (Nat.le_of_add_left_le hl)
    rw [run, h fuel (by omega)]
    dsimp only
    rw [ih fuel limit (by omega) (by omega)]

end RunsTo

end Stepwise.Machine
