import Stepwise.Proofs.Asking
import Stepwise.Proofs.Leads
import Stepwise.Proofs.Safety

/-!
# Driving a machine

The owner of a machine steps it, and in between goes up to the next statement, takes delays and
resumes what was suspended. None of this shows in the run: **a machine that is driven comes to what
it comes to by plain steps** (`drive_plain`).

Going up to a statement makes micro-steps that a plain step would make later, and these are `Quiet`:
they show neither a record nor a failure. So a driven machine is some quiet micro-steps ahead of the
plain one (`Lags`), and the next step makes up for that.

## What is compared

Two machines are driven side by side, the one by the commands of its owner and the other by nothing
but steps, one for each step of the first that came back. They are not equal in between: the first
may be ahead, and it may have given up a delay or a suspension that the other still asks for. The
second difference is `Alike`, which every micro-step keeps (`Proofs/Asking`), and the first is
`Quiet`; `Lags` has both.

Fuel is no part of what is compared. A step that has run out of it made quiet micro-steps only, and
the owner may step again; for the plain machine this is one step, with the fuel of both. Therefore
plain steps are counted by what they come to with all fuel that is enough (`StepsTo`).

A defect would be lost by an advance, which is why the program has to be linked: a reachable machine
of a linked program has none (`Proofs/Safety`). Cancelling is left out. It does show in the run, and
`Proofs/Cancellation` is about that.
-/

namespace Stepwise

/-- A micro-step that brings neither a record nor a failure. A defect is quiet as far as its shape
goes, and excluded where it counts. -/
def Tick.IsQuiet (t : Tick) : Prop := t = .running ∨ t = .done ∨ t = .defect

namespace Step

def record? : Step → Option StepRecord
  | .record r => some r
  | _ => none

theorem eq_of_record? {s : Step} {r : StepRecord} (h : s.record? = some r) : s = .record r := by
  cases s with
  | record =>
    cases h
    rfl
  | _ => cases h

/-- A step that has come back with something for its owner: not one that ran out of fuel, and not
one that found a position astray. -/
inductive Returned : Step → Prop where
  | record (r : StepRecord) : Returned (.record r)
  | ended : Returned .ended
  | failed (f : Failure) : Returned (.failed f)

/-- Whether there is a result to show: not if the fuel ran out first. -/
def isResult : Step → Bool
  | .outOfFuel => false
  | _ => true

end Step

namespace Machine

variable {σ : Type} {env : Setting σ} {m m₁ m' p q : Machine σ}

/-! ## Quiet micro-steps -/

/-- Micro-steps that show neither a record nor a failure, up to the end of the run at most. The end
of the run sets the flag, as a step does behind its last micro-step. -/
inductive Quiet (env : Setting σ) : Machine σ → Machine σ → Prop where
  | refl (m : Machine σ) : Quiet env m m
  | running {m m₁ m' : Machine σ} (going : m.finished = false)
      (ticks : m.tick env = (.running, m₁))
      (rest : Quiet env m₁ m') : Quiet env m m'
  | done {m m₁ : Machine σ} (going : m.finished = false) (ticks : m.tick env = (.done, m₁)) :
      Quiet env m { m₁ with finished := true }

namespace Quiet

theorem eq_of_finished (h : Quiet env m m') (hm : m.finished = true) : m' = m := by
  cases h with
  | refl => rfl
  | running going => rw [hm] at going; cases going
  | done going => rw [hm] at going; cases going

theorem trans (h : Quiet env m m₁) (h' : Quiet env m₁ m') : Quiet env m m' := by
  induction h with
  | refl => exact h'
  | running going ticks _ ih => exact .running going ticks (ih h')
  | done going ticks =>
    rw [h'.eq_of_finished rfl]
    exact .done going ticks

/-- What one machine does quietly, all machines do that only ask for other things, and they come to
machines that only ask for other things. -/
theorem alike (h : Quiet env m m') (halike : Alike m q) :
    ∃ q', Quiet env q q' ∧ Alike m' q' := by
  induction h generalizing q with
  | refl => exact ⟨q, .refl q, halike⟩
  | running going ticks _ ih =>
    have hgoing := halike.finished.trans going
    obtain ⟨hsame, hbehind⟩ := halike.tick env
    rw [ticks] at hsame hbehind
    have hq : q.tick env = (.running, (q.tick env).2) := Prod.ext hsame rfl
    obtain ⟨q', hq', halike'⟩ := ih hbehind
    exact ⟨q', .running hgoing hq hq', halike'⟩
  | done going ticks =>
    have hgoing := halike.finished.trans going
    obtain ⟨hsame, hbehind⟩ := halike.tick env
    rw [ticks] at hsame hbehind
    have hq : q.tick env = (.done, (q.tick env).2) := Prod.ext hsame rfl
    exact ⟨_, .done hgoing hq, hbehind.withFinished true⟩

end Quiet

/-! ## Looking ahead is quiet

An advance goes on while the next thing to do is not a statement. What it runs over are blocks that
end, tests, and structured statements that are entered, and each of them comes to `running`. -/

theorem settle_running {α : Type} (m : Machine σ) (kind : FrameKind) (below : List Frame)
    (line : Line) (r : Except Interrupt α × List Value × Store σ)
    (k : Machine σ → α → Machine σ) : (m.settle env kind below line r k).1 = .running := by
  obtain ⟨result, replay, store⟩ := r
  cases result <;> rfl

theorem runCondition_quiet (m : Machine σ) (u : CodeUnit) (place : StmtPath)
    (phase : ConditionPhase) (replay : List Value) (below : List Frame) :
    (m.runCondition env u place phase replay below).1.IsQuiet := by
  unfold runCondition
  split
  · cases phase with
    | branch => exact .inl rfl
    | test => exact .inl (settle_running ..)
  · exact .inr (.inr rfl)

theorem runLoop_quiet (m : Machine σ) (u : CodeUnit) (place : StmtPath)
    (kind : LoopPhase → FrameKind) (phase : LoopPhase) (replay : List Value)
    (below : List Frame) :
    (m.runLoop env u place kind phase replay below).1.IsQuiet := by
  unfold runLoop
  cases phase with
  | body => exact .inl rfl
  | test =>
    dsimp only
    split
    · exact .inl (settle_running ..)
    · exact .inl (settle_running ..)
    · exact .inr (.inr rfl)

theorem runRetry_quiet (m : Machine σ) (u : CodeUnit) (place : StmtPath) (phase : RetryPhase)
    (attempt max : UInt32) (replay : List Value) (below : List Frame) :
    (m.runRetry env u place phase attempt max replay below).1.IsQuiet := by
  unfold runRetry
  dsimp only
  split
  · rename_i attempts body test line hstmt
    cases phase with
    | enter => exact .inl (settle_running ..)
    | body => cases test <;> exact .inl rfl
    | test =>
      cases test with
      | none => exact .inl rfl
      | some test => exact .inl (settle_running ..)
  · exact .inr (.inr rfl)

/-- Only a statement shows something, and only a fault that is there already fails. An advance stops
in front of both. -/
theorem Goes.tick_quiet (h : Goes env m) : (m.tick env).1.IsQuiet := by
  have hheed : m.heedCancel env = some m := by
    simp [heedCancel, h.heeded]
  have hahead := h.ahead
  unfold tick
  rw [hheed]
  dsimp only
  rw [h.calm]
  unfold ahead? at hahead
  dsimp only
  rcases hm : m.activations with _ | ⟨⟨u, frames, subroutines, saved⟩, callers⟩
  · exact .inr (.inl rfl)
  rw [hm] at hahead
  dsimp only at hahead ⊢
  rcases frames with _ | ⟨⟨kind, replay⟩, below⟩
  · cases u with
    | main => exact .inr (.inl rfl)
    | function name => exact .inl rfl
  cases kind with
  | condition place phase => exact runCondition_quiet ..
  | cycle place phase => exact runLoop_quiet ..
  | doCycle place phase => exact runLoop_quiet ..
  | retry place phase attempt max => exact runRetry_quiet ..
  | tryCatch place phase => exact .inl rfl
  | block path next =>
    dsimp only at hahead ⊢
    unfold runBlock
    rcases hblock : env.program.block? u path with _ | block
    · exact .inr (.inr rfl)
    rcases hstmt : block.body[next]? with _ | stmt
    · simp only [hstmt]
      exact .inl rfl
    by_cases hs : stmt.isStructured = true
    · simp only [hstmt, if_pos hs]
      exact .inl rfl
    · simp only [hblock, Option.map_some, hstmt, if_neg hs] at hahead
      -- an unstructured statement is what an advance stops at
      rcases hahead with hahead | ⟨line, hahead⟩ <;> cases hahead

/-- **An advance swallows nothing**: all its micro-steps are quiet. A record or a failure that an
advance ran into would be shown to nobody. -/
theorem advance_quiet {stop : Line → Bool} {fuel : Nat}
    (h : (m.advance env stop fuel).1 ≠ .defect) : Quiet env m (m.advance env stop fuel).2 := by
  induction fuel generalizing m with
  | zero =>
    unfold advance
    split <;> exact .refl m
  | succ fuel ih =>
    rcases advance_cases env stop fuel m
      with ⟨hstopped, -⟩ | ⟨hdefect, -⟩ | ⟨hbehind, hgoes⟩
    · rw [hstopped]
      exact .refl m
    · rw [hdefect]
      exact .refl m
    · rw [hbehind] at h ⊢
      have hquiet := hgoes.tick_quiet
      rcases htick : m.tick env with ⟨t, m₁⟩
      rw [htick] at h hquiet
      rcases hquiet with rfl | rfl | rfl
      · exact .running hgoes.going htick (ih h)
      · exact .done hgoes.going htick
      · exact absurd rfl h

/-! ## Plain steps -/

/-- A number of steps, with nothing in between. -/
def steps (env : Setting σ) (fuel : Nat) : Nat → Machine σ → List Step × Machine σ
  | 0, m => ([], m)
  | n + 1, m =>
    let (s, m) := m.step env fuel
    let (rest, m) := steps env fuel n m
    (s :: rest, m)

/-- Plain steps come to these results, with all fuel that is enough. Every one of them has come
back, so neither a want of fuel nor a defect is among the results. -/
inductive Plain (env : Setting σ) : Machine σ → List Step → Machine σ → Prop where
  | nil (m : Machine σ) : Plain env m [] m
  | cons {m m₁ m' : Machine σ} {s : Step} {ss : List Step} (returned : s.Returned)
      (first : StepsTo env m s m₁) (rest : Plain env m₁ ss m') : Plain env m (s :: ss) m'

/-- Fuel that was enough is enough in any larger amount. -/
theorem StepsTo.of_step {fuel : Nat} {s : Step} (h : m.step env fuel = (s, m'))
    (returned : s.Returned) : StepsTo env m s m' := by
  induction fuel generalizing m with
  -- without fuel only a machine that is finished answers
  | zero =>
    unfold step at h
    split at h
    · cases h
      exact .finished ‹_›
    · cases h
      cases returned
  | succ fuel ih =>
    unfold step at h
    split at h
    · cases h
      exact .finished ‹_›
    rename_i hgoing
    have going : m.finished = false := Bool.not_eq_true _ ▸ hgoing
    rcases htick : m.tick env with ⟨t, m₁⟩
    rw [htick] at h
    cases t with
    -- the micro-step is the first of the step, and one less is left to pay for
    | running => exact .running going htick (ih h)
    | record r =>
      cases h
      exact .record going htick
    | done =>
      cases h
      exact .ended going htick
    | failed f =>
      cases h
      exact .failed going htick
    | defect =>
      cases h
      cases returned

/-- A step from behind quiet micro-steps is a step from in front of them. Where they ran to the end,
both steps answer that the run is over, the one because it comes there and the other because it is
there. -/
theorem StepsTo.of_quiet {s : Step} (h : Quiet env p q) (hq : StepsTo env q s m') :
    StepsTo env p s m' := by
  induction h with
  | refl => exact hq
  | running going ticks _ ih => exact .running going ticks (ih hq)
  | done going ticks =>
    obtain ⟨bound, hq⟩ := hq
    have hend := hq bound (Nat.le_refl _)
    rw [step.eq_def] at hend
    cases hend
    exact .ended going ticks

/-- A step that shows no record ends the run. It answers that the run is over, or that it failed. -/
theorem finished_of_step {fuel : Nat} {s : Step} (h : m.step env fuel = (s, m'))
    (returned : s.Returned) (hs : s.record? = none) : m'.finished = true := by
  induction fuel generalizing m with
  | zero =>
    unfold step at h
    split at h
    · cases h
      assumption
    · cases h
      cases returned
  | succ fuel ih =>
    unfold step at h
    split at h
    · cases h
      assumption
    rcases htick : m.tick env with ⟨t, m₁⟩
    rw [htick] at h
    cases t with
    | running => exact ih h
    -- a record is what the hypothesis excludes
    | record r =>
      cases h
      cases hs
    | done =>
      cases h
      rfl
    | failed f =>
      cases h
      rfl
    | defect =>
      cases h
      cases returned

namespace Plain

theorem append {ss ss' : List Step} (h : Plain env m ss m₁) (h' : Plain env m₁ ss' m') :
    Plain env m (ss ++ ss') m' := by
  induction h with
  | nil => exact h'
  | cons returned first _ ih => exact .cons returned first (ih h')

/-- Steps that come back do so with the same fuel for all of them, if there is enough of it. -/
theorem steps_eq {ss : List Step} (h : Plain env m ss m') :
    ∃ bound, ∀ fuel, bound ≤ fuel → m.steps env fuel ss.length = (ss, m') := by
  induction h with
  | nil m => exact ⟨0, fun _ _ => rfl⟩
  | cons _ first _ ih =>
    obtain ⟨bound, first⟩ := first
    obtain ⟨bound', ih⟩ := ih
    refine ⟨bound + bound', fun fuel hle => ?_⟩
    rw [List.length_cons, steps, first fuel (by omega)]
    dsimp only
    rw [ih fuel (by omega)]

theorem of_finished {ss : List Step} (h : Plain env m ss m') (hm : m.finished = true) :
    m' = m ∧ ∀ s ∈ ss, s = .ended := by
  induction h with
  | nil => exact ⟨rfl, nofun⟩
  | cons _ first _ ih =>
    obtain ⟨bound, first⟩ := first
    have hend := first bound (Nat.le_refl _)
    rw [step.eq_def, if_pos hm] at hend
    cases hend
    obtain ⟨hsame, hss⟩ := ih hm
    exact ⟨hsame, List.forall_mem_cons.mpr ⟨rfl, hss⟩⟩

theorem finished_of_first {s : Step} (returned : s.Returned) (first : StepsTo env m s m₁)
    (hs : s.record? = none) : m₁.finished = true := by
  obtain ⟨bound, first⟩ := first
  exact finished_of_step (first bound (Nat.le_refl _)) returned hs

theorem records_of_finished {ss : List Step} (h : Plain env m ss m') (hm : m.finished = true) :
    ss.filterMap Step.record? = [] := by
  rw [List.filterMap_eq_nil_iff]
  intro s hs
  rw [(h.of_finished hm).2 s hs]
  rfl

/-- The records of plain steps are the first ones of the run. Steps behind its end show none, so
they do not count. -/
theorem run_eq {ss : List Step} (h : Plain env m ss m') :
    ∃ bound, ∀ fuel, bound ≤ fuel →
      (m.run env fuel (ss.filterMap Step.record?).length).1 = ss.filterMap Step.record? := by
  induction h with
  | nil => exact ⟨0, fun _ _ => rfl⟩
  | @cons m m₁ m' s ss returned first rest ih =>
    cases returned with
    | record r =>
      obtain ⟨bound, first⟩ := first
      obtain ⟨bound', ih⟩ := ih
      refine ⟨bound + bound', fun fuel hle => ?_⟩
      show (m.run env fuel ((ss.filterMap Step.record?).length + 1)).1 = _
      rw [run, first fuel (by omega)]
      dsimp only
      rw [ih fuel (by omega)]
      rfl
    | ended =>
      rw [List.filterMap_cons_none rfl,
        rest.records_of_finished (finished_of_first .ended first rfl)]
      exact ⟨0, fun _ _ => rfl⟩
    | failed f =>
      rw [List.filterMap_cons_none rfl,
        rest.records_of_finished (finished_of_first (.failed f) first rfl)]
      exact ⟨0, fun _ _ => rfl⟩

theorem runsTo {ss : List Step} (h : Plain env m ss m') (hend : ∃ s ∈ ss, s.record? = none) :
    ∃ e, RunsTo env m (ss.filterMap Step.record?) e m' ∧
      (∀ f, .failed f ∈ ss → e = .failed f) ∧
        ((∀ f, .failed f ∉ ss) → e = .ended) := by
  induction h with
  | nil => obtain ⟨s, hs, -⟩ := hend; cases hs
  | @cons m m₁ m' s ss returned first rest ih =>
    -- the steps behind an end change nothing more
    have hended : s.record? = none →
        m' = m₁ ∧ ss.filterMap Step.record? = [] ∧ ∀ s ∈ ss, s = Step.ended := by
      intro hs
      have hfinished := finished_of_first returned first hs
      exact ⟨(rest.of_finished hfinished).1, rest.records_of_finished hfinished,
        (rest.of_finished hfinished).2⟩
    cases returned with
    | record r =>
      obtain ⟨t, ht, hnone⟩ := hend
      rcases List.mem_cons.mp ht with rfl | ht
      · cases hnone
      obtain ⟨e, hruns, hfailed, hended⟩ := ih ⟨t, ht, hnone⟩
      refine ⟨e, .record first hruns, ?_, ?_⟩
      · intro f hf
        rcases List.mem_cons.mp hf with hf | hf
        · cases hf
        · exact hfailed f hf
      · intro hno
        exact hended fun f hf => hno f (List.mem_cons_of_mem _ hf)
    | ended =>
      obtain ⟨rfl, hrecords, hss⟩ := hended rfl
      rw [List.filterMap_cons_none rfl, hrecords]
      refine ⟨.ended, .ended first, ?_, fun _ => rfl⟩
      intro f hf
      rcases List.mem_cons.mp hf with hf | hf
      · cases hf
      · cases hss _ hf
    | failed f =>
      obtain ⟨rfl, hrecords, hss⟩ := hended rfl
      rw [List.filterMap_cons_none rfl, hrecords]
      refine ⟨.failed f, .failed first, ?_, fun hno => absurd List.mem_cons_self (hno f)⟩
      intro f' hf
      rcases List.mem_cons.mp hf with hf | hf
      · cases hf
        rfl
      · cases hss _ hf

end Plain

/-! ## Driving a machine -/

/-- Obey commands one after the other, and collect what the steps come to. A step that has not come
back with its fuel has no result; the next command goes on from there. What an advance or a question
for the next line answers is not collected, since a plain machine is not asked. -/
def drive (env : Setting σ) : List Command → Machine σ → List Step × Machine σ
  | [], m => ([], m)
  | .step fuel :: rest, m =>
    let (s, m) := m.step env fuel
    let (results, m) := drive env rest m
    (if s.isResult then s :: results else results, m)
  | .advance stop fuel :: rest, m => drive env rest (m.advance env stop fuel).2
  | .nextLine :: rest, m => drive env rest m
  | .takeDelay :: rest, m => drive env rest m.takeDelay.2
  | .resume :: rest, m => drive env rest m.resume
  | .cancel :: rest, m => drive env rest m.cancel

/-- A plain machine that has some quiet micro-steps to make up for, and then differs from the driven
one in what it asks for at most. -/
def Lags (env : Setting σ) (p m : Machine σ) : Prop := ∃ q, Quiet env p q ∧ Alike q m

namespace Lags

theorem refl (m : Machine σ) : Lags env m m := ⟨m, .refl m, .refl m⟩

theorem alike (h : Lags env p m) (halike : Alike m m') : Lags env p m' := by
  obtain ⟨q, hq, hm⟩ := h
  exact ⟨q, hq, hm.trans halike⟩

/-- The driven machine goes ahead. The machine behind the quiet micro-steps does the same, since
what it asks for does not matter for that. -/
theorem quiet (h : Lags env p m) (hquiet : Quiet env m m') : Lags env p m' := by
  obtain ⟨q, hq, hm⟩ := h
  obtain ⟨q', hq', hm'⟩ := hquiet.alike hm.symm
  exact ⟨q', hq.trans hq', hm'.symm⟩

/-- After a step the two machines are level again. The plain one makes up for the quiet micro-steps
within its own step, and what that step shows is the same. -/
theorem step {fuel : Nat} {s : Step} (h : Lags env p m) (hstep : m.step env fuel = (s, m'))
    (returned : s.Returned) : ∃ p', StepsTo env p s p' ∧ Alike p' m' := by
  obtain ⟨q, hq, hm⟩ := h
  obtain ⟨hsame, hbehind⟩ := hm.symm.step env fuel
  rw [hstep] at hsame hbehind
  have hstep' : q.step env fuel = (s, (q.step env fuel).2) := Prod.ext hsame rfl
  exact ⟨_, .of_quiet hq (.of_step hstep' returned), hbehind.symm⟩

theorem ended (h : Lags env p m) (hm : m.finished = true) :
    ∃ p', StepsTo env p .ended p' ∧ Alike p' m := by
  have hstep : m.step env 0 = (.ended, m) := by rw [step.eq_def, if_pos hm]
  exact h.step hstep .ended

end Lags

theorem Plain.ending {ss : List Step} (h : Plain env m ss p) (lags : Lags env p m')
    (finished : m'.finished = true) :
    ∃ e final, RunsTo env m (ss.filterMap Step.record?) e final ∧ Alike final m' ∧
      (∀ f, .failed f ∈ ss → e = .failed f) ∧
        ((∀ f, .failed f ∉ ss) → e = .ended) := by
  obtain ⟨final, hend, halike⟩ := lags.ended finished
  obtain ⟨e, hruns, hfailed, hended⟩ :=
    (h.append (.cons .ended hend (.nil final))).runsTo ⟨.ended, by simp, rfl⟩
  rw [List.filterMap_append, List.filterMap_cons_none rfl, List.filterMap_nil,
    List.append_nil] at hruns
  refine ⟨e, final, hruns, halike, fun f hf => hfailed f (List.mem_append_left _ hf), ?_⟩
  intro hno
  apply hended
  intro f hf
  rcases List.mem_append.mp hf with hf | hf
  · exact hno f hf
  · cases List.mem_singleton.mp hf

/-- A step that runs out of fuel has made quiet micro-steps and no others, since a record or a
failure would have ended it before. -/
theorem quiet_of_outOfFuel {fuel : Nat} (h : m.step env fuel = (.outOfFuel, m')) :
    Quiet env m m' := by
  induction fuel generalizing m with
  | zero =>
    unfold step at h
    split at h
    · cases h
    · cases h
      exact .refl _
  | succ fuel ih =>
    unfold step at h
    split at h
    · cases h
    rename_i hgoing
    have going : m.finished = false := Bool.not_eq_true _ ▸ hgoing
    rcases htick : m.tick env with ⟨t, m₁⟩
    rw [htick] at h
    cases t with
    | running => exact .running going htick (ih h)
    | _ => cases h

/-- **Plain steps come to what a driven machine comes to**, and lag behind it at most. By induction
over the commands: taking a delay and resuming keep the machines alike, an advance makes the lag
longer, and a step that comes back makes them level. -/
theorem drive_plain (linked : env.program.Linked) (reach : Reachable env m) (lags : Lags env p m)
    {commands : List Command} (hcancel : .cancel ∉ commands) :
    ∃ p', Plain env p (drive env commands m).1 p' ∧ Lags env p' (drive env commands m).2 := by
  induction commands generalizing m p with
  | nil => exact ⟨p, .nil p, lags⟩
  | cons command rest ih =>
    have hrest : Command.cancel ∉ rest := fun h => hcancel (List.mem_cons_of_mem _ h)
    cases command with
    | nextLine => exact ih reach lags hrest
    | takeDelay =>
      exact ih (reach.handled .takeDelay) (lags.alike ⟨none, m.suspended, rfl⟩) hrest
    | resume => exact ih (reach.handled .resume) (lags.alike ⟨m.delay, false, rfl⟩) hrest
    | cancel => exact absurd List.mem_cons_self hcancel
    | advance stop fuel =>
      -- this is where the program has to be linked: an advance would hide a defect
      obtain ⟨hdefect, hreach⟩ := reach.advance linked stop fuel
      exact ih hreach (lags.quiet (advance_quiet hdefect)) hrest
    | step fuel =>
      obtain ⟨hdefect, hreach⟩ := reach.step linked fuel
      rw [drive]
      rcases hstep : m.step env fuel with ⟨s, m'⟩
      rw [hstep] at hdefect hreach
      -- a result is one of the plain machine, too, which then goes on from the same place
      have back : s.Returned → ∃ p', Plain env p (s :: (drive env rest m').1) p' ∧
          Lags env p' (drive env rest m').2 := by
        intro returned
        obtain ⟨p₁, hfirst, hlevel⟩ := lags.step hstep returned
        obtain ⟨p', hplain, hlags⟩ := ih hreach ((Lags.refl p₁).alike hlevel) hrest
        exact ⟨p', .cons returned hfirst hplain, hlags⟩
      cases s with
      | record r => exact back (.record r)
      | ended => exact back .ended
      | failed f => exact back (.failed f)
      | defect => exact absurd rfl hdefect
      | outOfFuel => exact ih hreach (lags.quiet (quiet_of_outOfFuel hstep)) hrest

end Machine

end Stepwise
