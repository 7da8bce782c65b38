import Stepwise.Proofs.Driving
import Stepwise.Proofs.Nesting
import Stepwise.Proofs.Ticked

/-!
# The end of a run

The owner of a machine steps it, runs it to its end, goes up to the next statement, takes delays,
resumes, cancels, and works on its scope. `Uses` are all the ways to do that. Between two of these a
machine is in one of two states (`Standing`): it is going, with the main program under functions and
no exit status, or it is over, with no unit left and no fault pending. **Once it is over it stays
so** (`end_is_final`): no step fails any more, or shows a record, or asks the host for anything.

The flag and the units are written at different places, so the two agree only between calls. What a
micro-step comes to says what has to be done about the flag (`Arrives`).

## Layout

Units and the flag are treated one after the other. `Rooted` is about the units alone: the main
program is the last, all others are functions, and each operation of the machine that changes the
units keeps it. `ending` is the flag with the exit status, which hardly any operation touches; each
of them has a lemma that says so, and the two that do are seen in `Arrives`.

From there it is one induction for a step (`Standing.step`), one for an advance, and one for all
calls of an owner. `Uses` is the notion of a history that other modules share: it is given by whole
calls with what they answer, and `Uses.to_acts` takes it down to micro-steps, for everything that is
known of reachable machines.

A call that does not come back is no part of a history, neither for want of fuel nor by a defect. It
leaves the machine in the middle of a step.
-/

namespace Stepwise

open Relation Activation

def Step.isFailure : Step → Bool
  | .failed _ => true
  | _ => false

namespace Machine

variable {σ : Type} {env : Setting σ} {m m₁ m' : Machine σ}
  {acts inner callers : List Activation} {act act' : Activation} {line : Line}

/-! ## Units -/

/-- The main program with functions in front of it. The list is never empty, since the main program
is there until the run is over. -/
inductive Rooted : List Activation → Prop where
  | main {act : Activation} (unit : act.unit = .main) : Rooted [act]
  | function {act : Activation} {callers : List Activation} {name : String}
      (unit : act.unit = .function name) (rest : Rooted callers) : Rooted (act :: callers)

namespace Rooted

theorem ne_nil (h : Rooted acts) : acts ≠ [] := by
  cases h <;> simp

theorem front (h : Rooted (act :: callers)) (same : act'.unit = act.unit) :
    Rooted (act' :: callers) := by
  cases h with
  | main unit => exact .main (same.trans unit)
  | function unit rest => exact .function (same.trans unit) rest

theorem under {name : String} (h : Rooted (act :: callers)) (unit : act.unit = .function name) :
    Rooted callers := by
  cases h with
  | main main =>
    rw [unit] at main
    cases main
  | function _ rest => exact rest

theorem tail (h : Rooted (act :: callers)) (more : callers ≠ []) : Rooted callers := by
  cases h with
  | main => exact absurd rfl more
  | function _ rest => exact rest

/-- Units that are dropped from the front leave those of a machine that is going, as long as one is
left. -/
theorem suffix (h : Rooted (inner ++ act :: callers)) : Rooted (act :: callers) := by
  induction inner with
  | nil => exact h
  | cons top inner ih => exact ih (h.tail (by simp))

theorem mapFrame (h : Rooted acts) (f : Frame → Frame) : Rooted (Activation.mapFrame f acts) := by
  cases acts with
  | nil => exact absurd rfl h.ne_nil
  | cons act callers =>
    obtain ⟨act', hmap, halters⟩ := mapFrame_cons f act callers
    rw [hmap]
    exact h.front halters.unit

theorem split (h : Rooted acts) :
    ∃ inner act, acts = inner ++ [act] ∧ act.unit = .main ∧ AllFunctions inner := by
  induction h with
  | @main act unit => exact ⟨[], act, rfl, unit, nofun⟩
  | @function top callers name unit _ ih =>
    obtain ⟨inner, act, rfl, hmain, hfunctions⟩ := ih
    exact ⟨top :: inner, act, rfl, hmain,
      List.forall_mem_cons.mpr ⟨⟨name, unit⟩, hfunctions⟩⟩

end Rooted

/-! ## What a machine says of its end -/

/-- Whether a machine is finished, and with which status. Only an exit and a return of the main
program write the status, and the flag is written by nothing that a micro-step does. -/
def ending (m : Machine σ) : Bool × Option Value := (m.finished, m.exitStatus)

section

variable {label : String}

theorem ending_mapTop (m : Machine σ) (f : Activation → Activation) :
    (m.mapTop f).ending = m.ending := by
  unfold mapTop
  split <;> rfl

theorem ending_withFrames (m : Machine σ) (frames : List Frame) :
    (m.withFrames frames).ending = m.ending :=
  ending_mapTop m _

theorem ending_raise (m : Machine σ) (line : Line) (fault : Fault) :
    (m.raise line fault).ending = m.ending :=
  ending_mapTop m _

theorem ending_returnFromFunction (m : Machine σ) (v : Value) :
    (m.returnFromFunction v).ending = m.ending := by
  unfold returnFromFunction
  split
  · rfl
  · exact ending_mapTop _ _

theorem ending_callFunction (env : Setting σ) (m : Machine σ) (line : Line) (name : String)
    (args : List Value) : (m.callFunction env line name args).ending = m.ending := by
  obtain ⟨scope, fault, heq⟩ | ⟨scope, shadowed, heq⟩ :=
    callFunction_eq env m line name args
  · rw [heq]
    exact ending_raise _ line fault
  · rw [heq]
    rfl

theorem ending_gosub (h : m.gosub env label = some (.ok m')) : m'.ending = m.ending := by
  obtain ⟨frames, rfl⟩ := gosub_eq h
  exact (ending_withFrames _ frames).trans (ending_mapTop m _)

theorem ending_handle {failure : Failure} {c : Caught} (h : m.handle env failure c = some m') :
    m'.ending = m.ending := by
  unfold handle at h
  dsimp only at h
  split at h
  · cases h
    exact ending_withFrames _ _
  split at h
  · split at h
    · cases h
      exact ending_withFrames _ _
    split at h
    · cases h
      exact ending_withFrames _ _
    · cases h
      exact (ending_raise _ _ _).trans (ending_withFrames _ _)
  · cases h

end

/-! ## Micro-steps -/

/-- What a micro-step of a machine that is going comes to, as far as the end of the run goes. Where
no unit is left there is no fault pending either. -/
inductive Arrives (m : Machine σ) : Tick × Machine σ → Prop where
  | astray (m' : Machine σ) : Arrives m (.defect, m')
  | running {m' : Machine σ} (rooted : Rooted m'.activations) (same : m'.ending = m.ending) :
      Arrives m (.running, m')
  | record {m' : Machine σ} (rooted : Rooted m'.activations) (same : m'.ending = m.ending)
      (r : StepRecord) : Arrives m (.record r, m')
  /-- The last record. Only here there can be a status. -/
  | last {m' : Machine σ} (nothing : m'.activations = []) (calm : m'.pending = none)
      (same : m'.finished = m.finished) (r : StepRecord) : Arrives m (.record r, m')
  | done {m' : Machine σ} (nothing : m'.activations = []) (calm : m'.pending = none)
      (same : m'.ending = m.ending) : Arrives m (.done, m')
  | failed {m' : Machine σ} (nothing : m'.activations = []) (calm : m'.pending = none)
      (same : m'.ending = m.ending) (f : Failure) : Arrives m (.failed f, m')

theorem recorded_arrives (h : ∀ r, Arrives m (.record r, m₁)) (line : Line)
    (value : Option Value) :
    Arrives m (m₁.recorded env line value) := by
  unfold recorded
  split
  · exact h _
  · exact .astray m₁

section

variable {u : CodeUnit} {before : List Frame} {subroutines : List (List Frame)}
  {saved : List (String × Option Value)}

theorem rooted_withFrames (h : Rooted m.activations) (frames : List Frame) :
    Rooted (m.withFrames frames).activations := by
  rcases hacts : m.activations with _ | ⟨⟨u, before, subroutines, saved⟩, callers⟩
  · exact absurd hacts h.ne_nil
  · rw [withFrames_activations hacts]
    rw [hacts] at h
    exact h.front rfl

theorem rooted_raise (h : Rooted m.activations) (line : Line) (fault : Fault) :
    Rooted (m.raise line fault).activations := by
  rw [raise_activations]
  exact h.mapFrame _

theorem rooted_callFunction (h : Rooted m.activations) (line : Line) (name : String)
    (args : List Value) :
    Rooted (m.callFunction env line name args).activations := by
  unfold callFunction
  split
  · exact rooted_raise h _ _
  split
  · exact rooted_raise h _ _
  split
  · exact rooted_raise h _ _
  split
  · refine rooted_raise ?_ _ _
    exact h
  · exact .function rfl h

/-- A return goes back into a subroutine's caller, into the caller of a function, or ends the main
program. Only the last leaves no unit. -/
theorem ret_arrives (rooted : Rooted m₁.activations) (calm : m₁.pending = none)
    (same : m₁.ending = m.ending) (line : Line) (v : Option Value) :
    Arrives m ((m₁.ret v).recorded env line v) := by
  refine recorded_arrives (fun r => ?_) line v
  -- by what is there to return to: a subroutine first, then the unit
  rcases hacts : m₁.activations
    with _ | ⟨⟨u, frames, _ | ⟨aside, older⟩, saved⟩, callers⟩
  · exact absurd hacts rooted.ne_nil
  · cases u with
    | main =>
      have hret : m₁.ret v = m₁.terminate v := by simp only [ret, hacts]
      have hnothing : (m₁.terminate v).activations = [] := rfl
      rw [hret]
      exact .last hnothing calm (congrArg Prod.fst same) r
    | function name =>
      have hret : m₁.ret v = m₁.returnFromFunction (v.getD .null) := by simp only [ret, hacts]
      rw [hret]
      refine .record ?_ ((ending_returnFromFunction m₁ _).trans same) r
      rw [returnFromFunction_activations hacts]
      rw [hacts] at rooted
      exact (rooted.under rfl).mapFrame _
  · have hret : m₁.ret v = m₁.mapTop fun act =>
        { act with frames := aside, subroutines := older } := by
      simp only [ret, hacts]
    rw [hret]
    refine .record ?_ ((ending_mapTop m₁ _).trans same) r
    simp only [mapTop, hacts]
    rw [hacts] at rooted
    exact rooted.front rfl

/-- What a statement that is done asks for. A jump to a label that is nowhere is a fault, and the
units stay. -/
theorem apply_arrives (rooted : Rooted m₁.activations) (calm : m₁.pending = none)
    (same : m₁.ending = m.ending) (line : Line) (effect : Effect) :
    Arrives m (m₁.apply env line effect) := by
  rcases hacts : m₁.activations with _ | ⟨⟨u, before, subroutines, saved⟩, callers⟩
  · exact absurd hacts rooted.ne_nil
  -- a label that is missing, and a subroutine that is nested too deep, end here
  have refused : ∀ fault, Arrives m (.running, m₁.raise line fault) := fun fault =>
    .running (rooted_raise rooted line fault) ((ending_raise m₁ line fault).trans same)
  cases effect with
  | value v => exact recorded_arrives (.record rooted same) line v
  | delay ns v =>
    have shown : ∀ r, Arrives m (.record r, { m₁ with delay := some ns }) := .record rooted same
    exact recorded_arrives shown line (some v)
  | suspend =>
    have shown : ∀ r, Arrives m (.record r, { m₁ with suspended := true }) :=
      .record rooted same
    exact recorded_arrives shown line none
  -- all units are gone, as behind a return of the main program
  | exit status =>
    have hnothing : (m₁.terminate status).activations = [] := rfl
    exact recorded_arrives (.last hnothing calm (congrArg Prod.fst same)) line status
  | ret v => exact ret_arrives rooted calm same line v
  | jump label =>
    obtain ⟨hjump, -⟩ | ⟨hjump, -⟩ | ⟨-, -, frames, hjump, -⟩ :=
      jump_cases env hacts label
    · simp only [apply, hjump]
      exact .astray m₁
    · simp only [apply, hjump]
      exact refused _
    · simp only [apply, hjump]
      exact recorded_arrives
        (.record (rooted_withFrames rooted frames) ((ending_withFrames m₁ frames).trans same))
          line none
  | sub label =>
    obtain ⟨hgosub, -⟩ | ⟨fault, hgosub⟩ | ⟨-, -, frames, m₂, hgosub, -, -, -,
      -, hm₂⟩ :=
      gosub_cases env hacts label
    · simp only [apply, hgosub]
      exact .astray m₁
    · simp only [apply, hgosub]
      exact refused fault
    · simp only [apply, hgosub]
      refine recorded_arrives (.record ?_ ((ending_gosub hgosub).trans same)) line none
      rw [hm₂]
      rw [hacts] at rooted
      exact rooted.front rfl

end

theorem failed_arrives {t : Machine σ} (same : t.ending = m.ending) (f : Failure) :
    Arrives m (.failed f, { t with activations := [], pending := none }) := by
  have hnothing : { t with activations := [], pending := none }.activations = [] := rfl
  exact .failed hnothing rfl same f

/-- A fault ends the run, or a handler goes on in one of the units that were there. Handlers are
looked for from the front, and the units in front of the one that has it are dropped. -/
theorem unwind_arrives (rooted : Rooted m.activations) (failure : Failure) :
    Arrives m (m.unwind env failure) := by
  unfold unwind
  by_cases hterminal : failure.fault.isTerminal = true
  · rw [if_pos hterminal]
    exact failed_arrives rfl failure
  rw [if_neg hterminal]
  rcases hfind : findCaught m.scope m.activations with s | c
  · exact failed_arrives (m := m) (t := m.withScope s) rfl failure
  dsimp only
  obtain ⟨m₁, hhandle, hacts⟩ | ⟨hhandle, -⟩ := handle_cases env m failure c
  · rw [hhandle]
    refine .running ?_ (ending_handle hhandle)
    obtain ⟨inner, act, hsplit, hunit, -⟩ := caught_split hfind
    rw [hsplit] at rooted
    rw [hacts]
    exact rooted.suffix.front hunit
  · rw [hhandle]
    exact .astray m

/-- A micro-step of a machine with the main program under functions. `Ticked` has one case for each
kind of micro-step, so this is all of them. -/
theorem Ticked.arrives {r : Tick × Machine σ} (h : Ticked env m r)
    (rooted : Rooted m.activations) :
    Arrives m r := by
  cases h with
  | astray => exact .astray m
  | cancelled line => exact failed_arrives (ending_raise m line .cancelled) _
  | unwind pending => exact unwind_arrives rooted _
  | idle going nothing => exact .done nothing going rfl
  | ended going =>
    have hnothing : { m with activations := [], pending := none }.activations = [] := rfl
    exact .done hnothing rfl rfl
  | back going front =>
    refine .running ?_ (ending_returnFromFunction m _)
    rw [returnFromFunction_activations front]
    rw [front] at rooted
    exact (rooted.under rfl).mapFrame _
  | @moved store going same frames =>
    exact .running (rooted_withFrames (m := { m with store }) rooted frames)
      (ending_withFrames _ frames)
  | @ran _ path next _ below _ _ _ stmt e effect going front hstmt hexec hresult =>
    -- the statement is passed before its effect is applied, which changes neither units nor the end
    let passed :=
      { m with store := e.store }.withFrames (⟨.block path (next + 1), e.replay⟩ :: below)
    have hrooted : Rooted passed.activations :=
      rooted_withFrames (m := { m with store := e.store }) rooted _
    have hcalm : passed.pending = none := (pending_withFrames _ _).trans going
    have hsame : passed.ending = m.ending := ending_withFrames _ _
    exact apply_arrives hrooted hcalm hsame stmt.line effect
  | @stopped _ _ _ _ _ _ _ _ store line i going front stops =>
    have hrooted : ∀ frames, Rooted ({ m with store }.withFrames frames).activations :=
      rooted_withFrames (m := { m with store }) rooted
    have hsame : ∀ frames, ({ m with store }.withFrames frames).ending = m.ending :=
      ending_withFrames { m with store }
    cases i with
    | fault f =>
      exact .running (rooted_raise (hrooted _) line f) ((ending_raise _ line f).trans (hsame _))
    | call name args =>
      exact .running (rooted_callFunction (hrooted _) line name args)
        ((ending_callFunction env _ line name args).trans (hsame _))

/-! ## Between two calls -/

/-- The states of a machine between two calls of its owner. In the middle of a call the flag may not
be set yet while no unit is left. -/
inductive Standing (m : Machine σ) : Prop where
  | going (going : m.finished = false) (rooted : Rooted m.activations)
      (status : m.exitStatus = none)
  | ended (finished : m.finished = true) (nothing : m.activations = []) (calm : m.pending = none)

theorem standing_new (scope : Scope) (world : σ) : (Machine.new scope world).Standing :=
  .going rfl (.main rfl) rfl

/-- A step goes from one such state to the next. It sets the flag behind a record if no unit is
left, and always where the run ends without one. -/
theorem Standing.step (h : m.Standing) {fuel : Nat} {s : Step} (hstep : m.step env fuel = (s, m'))
    (returned : s.Returned) : m'.Standing := by
  induction fuel generalizing m with
  | zero =>
    unfold Machine.step at hstep
    split at hstep
    · cases hstep
      exact h
    · cases hstep
      cases returned
  | succ fuel ih =>
    unfold Machine.step at hstep
    cases h with
    | ended finished nothing calm =>
      rw [if_pos finished] at hstep
      cases hstep
      exact .ended finished nothing calm
    | going going rooted status =>
      rw [going, if_neg Bool.false_ne_true] at hstep
      have arrives := (tick_ticked env m).arrives rooted
      generalize m.tick env = r at hstep arrives
      -- the flag is set exactly where no unit is left
      cases arrives with
      | astray =>
        cases hstep
        cases returned
      | running rooted' same =>
        obtain ⟨hfinished, hstatus⟩ := Prod.ext_iff.mp same
        exact ih (.going (hfinished.trans going) rooted' (hstatus.trans status)) hstep
      | @record m₁ rooted' same r =>
        cases hstep
        obtain ⟨hfinished, hstatus⟩ := Prod.ext_iff.mp same
        refine .going ?_ rooted' (hstatus.trans status)
        have hgoing : m₁.finished = false := hfinished.trans going
        simp [hgoing, rooted'.ne_nil]
      | last nothing calm same r =>
        cases hstep
        exact .ended (by simp [nothing]) nothing calm
      | done nothing calm same =>
        cases hstep
        exact .ended rfl nothing calm
      | failed nothing calm same f =>
        cases hstep
        exact .ended rfl nothing calm

/-- Going up to a statement shows no record and no failure, so what it leaves is going or over,
too. -/
theorem Standing.advance (h : m.Standing) {stop : Line → Bool} {fuel : Nat}
    (hadvance : m.advance env stop fuel = (.stopped, m')) : m'.Standing := by
  induction fuel generalizing m with
  | zero =>
    unfold Machine.advance at hadvance
    split at hadvance
    · cases hadvance
      exact h
    · cases hadvance
  | succ fuel ih =>
    obtain ⟨hstopped, -⟩ | ⟨hdefect, -⟩ | ⟨hbehind, hgoes⟩ :=
      advance_cases env stop fuel m
    -- it stands where it was going to
    · rw [hstopped] at hadvance
      cases hadvance
      exact h
    · rw [hdefect] at hadvance
      cases hadvance
    rw [hbehind] at hadvance
    cases h with
    | ended finished =>
      rw [hgoes.going] at finished
      cases finished
    | going going rooted status =>
      have arrives := (tick_ticked env m).arrives rooted
      have quiet := hgoes.tick_quiet
      generalize m.tick env = r at hadvance arrives quiet
      cases arrives with
      | astray => cases hadvance
      | running rooted' same =>
        obtain ⟨hfinished, hstatus⟩ := Prod.ext_iff.mp same
        exact ih (.going (hfinished.trans going) rooted' (hstatus.trans status)) hadvance
      | done nothing calm same =>
        cases hadvance
        exact .ended rfl nothing calm
      -- on the way to a statement there is nothing to show
      | record => rcases quiet with h | h | h <;> cases h
      | last => rcases quiet with h | h | h <;> cases h
      | failed => rcases quiet with h | h | h <;> cases h

theorem Standing.plain {ss : List Step} (h : m.Standing) (plain : Plain env m ss m') :
    m'.Standing := by
  induction plain with
  | nil => exact h
  | cons returned first _ ih =>
    obtain ⟨bound, first⟩ := first
    exact ih (h.step (first bound (Nat.le_refl _)) returned)

/-! ## What the owner of a machine does -/

/-- What a run that is over answers in the end. -/
def RunEnd.answer? : RunEnd → Option Step
  | .ended => some .ended
  | .failed f => some (.failed f)
  | _ => none

deriving instance DecidableEq for Advance

/-- One call of the owner that comes back, and what its steps answer. A run answers its records and
then what it ended with; all calls that are not steps answer nothing. -/
inductive Serves (env : Setting σ) (m : Machine σ) : List Step → Machine σ → Prop where
  | step {fuel : Nat} {s : Step} {m' : Machine σ} (h : m.step env fuel = (s, m'))
      (returned : s.Returned) :
      Serves env m [s] m'
  | run {fuel limit : Nat} {records : List StepRecord} {e : RunEnd} {s : Step} {m' : Machine σ}
      (h : m.run env fuel limit = (records, e, m')) (answer : e.answer? = some s) :
      Serves env m (records.map .record ++ [s]) m'
  | advance {stop : Line → Bool} {fuel : Nat} {m' : Machine σ}
      (h : m.advance env stop fuel = (.stopped, m')) : Serves env m [] m'
  | handled {m' : Machine σ} (h : Handled m m') : Serves env m [] m'

/-- Any number of calls, and what all their steps answer, in order. The program and the host are the
same throughout; the fuel and the places to stop at may differ from call to call. -/
inductive Uses (env : Setting σ) : Machine σ → List Step → Machine σ → Prop where
  | nil (m : Machine σ) : Uses env m [] m
  | cons {m m₁ m' : Machine σ} {answers later : List Step} (serves : Serves env m answers m₁)
      (rest : Uses env m₁ later m') : Uses env m (answers ++ later) m'

theorem Serves.of_record {fuel : Nat} {r : StepRecord} (h : (m.step env fuel).1.record? = some r) :
    Serves env m [.record r] (m.step env fuel).2 :=
  .step (Prod.ext (Step.eq_of_record? h) rfl) (.record r)

theorem Serves.of_stopped {stop : Line → Bool} {fuel : Nat}
    (h : (m.advance env stop fuel).1 = .stopped) :
    Serves env m [] (m.advance env stop fuel).2 :=
  .advance (Prod.ext h rfl)

/-- A run is plain steps up to the one that ends it. So what is shown of plain steps is shown of
runs. -/
theorem plain_of_run {fuel limit : Nat} {records : List StepRecord} {e : RunEnd} {s : Step}
    (h : m.run env fuel limit = (records, e, m')) (answer : e.answer? = some s) :
    Plain env m (records.map .record ++ [s]) m' := by
  induction limit generalizing m records with
  | zero =>
    cases h
    cases answer
  | succ limit ih =>
    unfold run at h
    rcases hstep : m.step env fuel with ⟨first, m₁⟩
    rw [hstep] at h
    cases first with
    -- the records of the run begin with this one, and the rest is the run behind it
    | record r =>
      dsimp only at h
      rcases hrest : m₁.run env fuel limit with ⟨rest, e', m₂⟩
      rw [hrest] at h
      cases h
      exact .cons (.record r) (.of_step hstep (.record r)) (ih hrest)
    -- the last step shows no record, and it is the answer of the run
    | ended =>
      cases h
      cases answer
      exact .cons .ended (.of_step hstep .ended) (.nil _)
    | failed f =>
      cases h
      cases answer
      exact .cons (.failed f) (.of_step hstep (.failed f)) (.nil _)
    | defect =>
      cases h
      cases answer
    | outOfFuel =>
      cases h
      cases answer

theorem Serves.cases_plain {answers : List Step} (h : Serves env m answers m') :
    Plain env m answers m' ∨ answers = [] := by
  cases h with
  | step h returned => exact .inl (.cons returned (.of_step h returned) (.nil _))
  | run h answer => exact .inl (plain_of_run h answer)
  | _ => exact .inr rfl

theorem Standing.handled (standing : m.Standing) (h : Handled m m') : m'.Standing := by
  cases h with
  | takeDelay | resume | cancel | operate =>
    cases standing with
    | going going rooted status => exact .going going rooted status
    | ended finished nothing calm => exact .ended finished nothing calm

theorem Serves.standing {answers : List Step} (h : Serves env m answers m')
    (standing : m.Standing) :
    m'.Standing := by
  cases h with
  | step h returned => exact standing.step h returned
  | run h answer => exact standing.plain (plain_of_run h answer)
  | advance h => exact standing.advance h
  | handled h => exact standing.handled h

theorem Uses.standing {answers : List Step} (h : Uses env m answers m') (standing : m.Standing) :
    m'.Standing := by
  induction h with
  | nil => exact standing
  | cons serves _ ih => exact ih (serves.standing standing)

/-! ## Calls are made of micro-steps -/

/-- A step is micro-steps, and the flag behind the last of them. This also holds of a step that ran
out of fuel. -/
theorem step_acts (env : Setting σ) (fuel : Nat) (m : Machine σ) :
    ReflTransGen (Acts env) m (m.step env fuel).2 := by
  induction fuel generalizing m with
  | zero =>
    unfold Machine.step
    split <;> exact .refl
  | succ fuel ih =>
    unfold Machine.step
    split
    · exact .refl
    have ticked : ReflTransGen (Acts env) m (m.tick env).2 := .single .tick
    rcases htick : m.tick env with ⟨t, m₁⟩
    rw [htick] at ticked
    cases t with
    | running => exact ticked.trans (ih m₁)
    | record r => exact ticked.tail (.finish _)
    | done => exact ticked.tail (.finish _)
    | failed f => exact ticked.tail (.finish _)
    | defect => exact ticked

theorem advance_acts (env : Setting σ) (stop : Line → Bool) (fuel : Nat) (m : Machine σ) :
    ReflTransGen (Acts env) m (m.advance env stop fuel).2 := by
  induction fuel generalizing m with
  | zero =>
    unfold Machine.advance
    split <;> exact .refl
  | succ fuel ih =>
    obtain ⟨hstopped, -⟩ | ⟨hdefect, -⟩ | ⟨hbehind, -⟩ := advance_cases env stop fuel m
    · rw [hstopped]
    · rw [hdefect]
    rw [hbehind]
    have ticked : ReflTransGen (Acts env) m (m.tick env).2 := .single .tick
    rcases htick : m.tick env with ⟨t, m₁⟩
    rw [htick] at ticked
    cases t with
    | running => exact ticked.trans (ih m₁)
    | done => exact ticked.tail (.finish _)
    | record r => exact ticked
    | failed f => exact ticked
    | defect => exact ticked

theorem Plain.to_acts {ss : List Step} (h : Plain env m ss m') : ReflTransGen (Acts env) m m' := by
  induction h with
  | nil => exact .refl
  | @cons m m₁ m' s ss returned first _ ih =>
    obtain ⟨bound, first⟩ := first
    have hfirst := step_acts env bound m
    rw [first bound (Nat.le_refl _)] at hfirst
    exact hfirst.trans ih

theorem Uses.to_acts {answers : List Step} (h : Uses env m answers m') :
    ReflTransGen (Acts env) m m' := by
  induction h with
  | nil => exact .refl
  | @cons m m₁ m' answers later serves _ ih =>
    refine .trans ?_ ih
    cases serves with
    | @step fuel s _ h returned =>
      have hacts := step_acts env fuel m
      rwa [h] at hacts
    | run h answer => exact (plain_of_run h answer).to_acts
    | @advance stop fuel _ h =>
      have hacts := advance_acts env stop fuel m
      rwa [h] at hacts
    | handled h => exact .single (.handled h)

/-- Whole calls come to no machine but those that acts come to. The converse does not hold, since
acts can stop in the middle of a call. -/
theorem Uses.reachable {scope : Scope} {world : σ} {answers : List Step}
    (h : Uses env (Machine.new scope world) answers m) : Reachable env m :=
  ⟨scope, world, h.to_acts⟩

theorem known_of_placed (placed : AllPlaced env.program acts) (hact : act ∈ acts) {name : String}
    (unit : act.unit = .function name) : ∃ d, env.program.function? name = some d := by
  obtain ⟨root, hplaced⟩ := placed.placed act hact
  have hroot := hplaced.unit
  rw [unit, Program.unitRoot?] at hroot
  obtain ⟨d, hd, -⟩ := Option.map_eq_some_iff.mp hroot
  exact ⟨d, hd⟩

/-! ## Behind the end -/

/-- A machine that is finished, and what its owner has made of it since. The delay, the suspension
and the cancel flag may be others by now, and matter to nobody. -/
structure Rests (m m' : Machine σ) : Prop where
  finished : m'.finished = true
  world : m'.store.world = m.store.world
  status : m'.exitStatus = m.exitStatus
  scope : ReflTransGen Scope.Operates m.scope m'.scope

theorem Rests.of_handled (h : Handled m m') (finished : m.finished = true) : Rests m m' := by
  cases h with
  | takeDelay => exact ⟨finished, rfl, rfl, .refl⟩
  | resume => exact ⟨finished, rfl, rfl, .refl⟩
  | cancel => exact ⟨finished, rfl, rfl, .refl⟩
  | operate h => exact ⟨finished, rfl, rfl, .single h⟩

/-- Every call leaves a finished machine as it is, but for what the owner does to the scope. -/
theorem Serves.rests {answers : List Step} (h : Serves env m answers m')
    (finished : m.finished = true) :
    Rests m m' ∧ ∀ s ∈ answers, s = .ended := by
  have stays : Rests m m := ⟨finished, rfl, rfl, .refl⟩
  cases h with
  | step h returned =>
    rw [step.eq_def, if_pos finished] at h
    cases h
    exact ⟨stays, by simp⟩
  | run h answer =>
    obtain ⟨rfl, hended⟩ := (plain_of_run h answer).of_finished finished
    exact ⟨stays, hended⟩
  | advance h =>
    unfold Machine.advance at h
    rw [finished, Bool.true_or, Bool.true_or, if_pos rfl] at h
    cases h
    exact ⟨stays, List.forall_mem_nil _⟩
  | handled h => exact ⟨.of_handled h finished, List.forall_mem_nil _⟩

theorem Uses.rests {answers : List Step} (h : Uses env m answers m')
    (finished : m.finished = true) :
    Rests m m' ∧ ∀ s ∈ answers, s = .ended := by
  induction h with
  | nil => exact ⟨⟨finished, rfl, rfl, .refl⟩, List.forall_mem_nil _⟩
  | cons serves _ ih =>
    obtain ⟨hfirst, hanswers⟩ := serves.rests finished
    obtain ⟨hrest, hlater⟩ := ih hfirst.finished
    refine ⟨⟨hrest.finished, hrest.world.trans hfirst.world, hrest.status.trans hfirst.status,
      hfirst.scope.trans hrest.scope⟩, ?_⟩
    intro s hs
    rcases List.mem_append.mp hs with hs | hs
    · exact hanswers s hs
    · exact hlater s hs

theorem countP_of_ended {answers : List Step} (h : ∀ s ∈ answers, s = .ended) :
    answers.countP Step.isFailure = 0 := by
  rw [List.countP_eq_zero]
  intro s hs
  rw [h s hs]
  exact Bool.false_ne_true

/-- Plain steps fail once at most, and if they do the run is over. With `Uses.failures` this goes
over to all calls: a failure shows in one of them, and none behind it does anything. -/
theorem Plain.failures {ss : List Step} (h : Plain env m ss m') :
    ss.countP Step.isFailure ≤ 1 ∧ (ss.countP Step.isFailure ≠ 0 → m'.finished = true) := by
  induction h with
  | nil => simp
  | @cons m m₁ m' s ss returned first rest ih =>
    rw [List.countP_cons]
    cases returned with
    | record r => simpa [Step.isFailure] using ih
    | ended => simpa [Step.isFailure] using ih
    | failed f =>
      -- behind a failure nothing happens any more
      have hfinished : m₁.finished = true := finished_of_first (.failed f) first rfl
      obtain ⟨rfl, hended⟩ := rest.of_finished hfinished
      simp [countP_of_ended hended, Step.isFailure, hfinished]

theorem Uses.failures {answers : List Step} (h : Uses env m answers m') :
    answers.countP Step.isFailure ≤ 1 ∧
      (answers.countP Step.isFailure ≠ 0 → m'.finished = true) := by
  induction h with
  | nil => simp
  | @cons m m₁ m' answers later serves rest ih =>
    rw [List.countP_append]
    by_cases hnone : answers.countP Step.isFailure = 0
    · rw [hnone, Nat.zero_add]
      exact ih
    · obtain hplain | rfl := serves.cases_plain
      · obtain ⟨hone, hover⟩ := hplain.failures
        obtain ⟨hrests, hended⟩ := rest.rests (hover hnone)
        rw [countP_of_ended hended]
        exact ⟨hone, fun _ => hrests.finished⟩
      · exact absurd rfl hnone

theorem Uses.append {answers later : List Step} (h : Uses env m answers m₁)
    (h' : Uses env m₁ later m') :
    Uses env m (answers ++ later) m' := by
  induction h with
  | nil => exact h'
  | cons serves _ ih =>
    rw [List.append_assoc]
    exact .cons serves (ih h')

/-! ## Statements that end a run -/

/-- The statement in front is an exit, or a return of the main program with no subroutine open. With
a subroutine open a return goes back there. -/
inductive EndsRun (p : Program) (m : Machine σ) : Prop where
  | exit {u : CodeUnit} {path : BlockPath} {next : Nat} {replay : List Value} {below : List Frame}
      {subroutines : List (List Frame)} {saved : List (String × Option Value)}
      {callers : List Activation} {value : Option Expr} {line : Line}
      (front : m.activations =
        ⟨u, ⟨.block path next, replay⟩ :: below, subroutines, saved⟩ :: callers)
      (stmt : p.stmt? u ⟨path, next⟩ = some (.exit value line))
  | ret {path : BlockPath} {next : Nat} {replay : List Value} {below : List Frame}
      {saved : List (String × Option Value)} {callers : List Activation} {value : Option Expr}
      {line : Line}
      (front : m.activations =
        ⟨.main, ⟨.block path next, replay⟩ :: below, [], saved⟩ :: callers)
      (stmt : p.stmt? .main ⟨path, next⟩ = some (.ret value line))

/-- Behind the record of such a statement no unit is left. Without a record its value was not to be
had, and then the statement is a fault like any other. -/
theorem EndsRun.nothing {r : StepRecord} (h : EndsRun env.program m)
    (htick : m.tick env = (.record r, m')) :
    m'.activations = [] := by
  have ticked := tick_ticked env m
  rw [htick] at ticked
  cases h with
  | exit front stmt =>
    obtain ⟨e, effect, yields, hr⟩ := ticked.of_record rfl front stmt
    obtain rfl : m' = _ := congrArg Prod.snd hr
    cases yields with
    | value plain => cases plain
    | exit => rw [apply, recorded_snd, terminate]
  | ret front stmt =>
    obtain ⟨e, effect, yields, hr⟩ := ticked.of_record rfl front stmt
    obtain rfl : m' = _ := congrArg Prod.snd hr
    cases yields with
    | value plain => cases plain
    | ret =>
      rw [apply, recorded_snd, Machine.ret]
      simp only [withFrames_activations (m := { m with store := e.store }) front, terminate]

/-- The record of a step is that of its last micro-step. All others were quiet, so the statement
that is in front behind those is the one that the record is about. -/
theorem StepsTo.of_record {r : StepRecord} (h : StepsTo env m (.record r) m') :
    ∃ m₀ m₁, Quiet env m m₀ ∧ m₀.tick env = (.record r, m₁) ∧
      m' = m₁.settled := by
  obtain ⟨fuel, h⟩ := h
  have hstep := h fuel (Nat.le_refl _)
  clear h
  induction fuel generalizing m with
  | zero =>
    unfold Machine.step at hstep
    split at hstep <;> cases hstep
  | succ fuel ih =>
    unfold Machine.step at hstep
    cases going : m.finished with
    | true =>
      rw [if_pos going] at hstep
      cases hstep
    | false =>
      rw [going, if_neg Bool.false_ne_true] at hstep
      rcases htick : m.tick env with ⟨t, m₁⟩
      rw [htick] at hstep
      cases t with
      -- a quiet micro-step more in front of those of the rest
      | running =>
        obtain ⟨m₀, m₂, hquiet, hlast, hm'⟩ := ih hstep
        exact ⟨m₀, m₂, .running going htick hquiet, hlast, hm'⟩
      | record r =>
        cases hstep
        exact ⟨m, m₁, .refl m, htick, rfl⟩
      | _ => cases hstep

/-- **The end of a run is final, and can be seen.** Take a machine that has come from its start by
any calls, and any calls behind that. Between the two:
* it is finished exactly if no unit is left; if it goes on, its units are functions of the program
  over the main program; a machine that is finished has no fault pending, and only such a one has an
  exit status;
* all the steps before and behind fail once at most, and where one has failed the machine is
  finished;
* so it is behind the record of an exit, or of a return of the main program;
* once it is finished it stays so: every step answers that the run is over and leaves the machine as
  it is, whatever the program and the host are, and only its owner changes its variables. -/
theorem end_is_final {scope : Scope} {world : σ} {before after : List Step}
    (uses : Uses env (Machine.new scope world) before m) (later : Uses env m after m') :
    ((m.finished = true ↔ m.activations = []) ∧
      (m.finished = false → ∃ inner act, m.activations = inner ++ [act] ∧ act.unit = .main ∧
        ∀ f ∈ inner, ∃ name d, f.unit = .function name ∧
          env.program.function? name = some d) ∧
      (m.finished = true → m.pending = none) ∧
        (m.exitStatus.isSome = true → m.finished = true)) ∧
    ((before ++ after).countP Step.isFailure ≤ 1 ∧
      (before.countP Step.isFailure ≠ 0 → m.finished = true)) ∧
    (∀ r m₁, StepsTo env m (.record r) m₁ → ∃ m₀ m₂, Quiet env m m₀ ∧
      m₀.tick env = (.record r, m₂) ∧ m₁ = m₂.settled ∧
        (EndsRun env.program m₀ → m₁.finished = true)) ∧
    (m.finished = true → Rests m m' ∧ (∀ s ∈ after, s = .ended) ∧
      ∀ (other : Setting σ) (fuel : Nat), m'.step other fuel = (.ended, m')) := by
  have standing := uses.standing (standing_new scope world)
  refine ⟨?_, ⟨(uses.append later).failures.1, uses.failures.2⟩, ?_, ?_⟩
  -- what a machine between two steps is like, read off the two ways of standing
  · cases standing with
    | going going rooted status =>
      refine ⟨by simp [going, rooted.ne_nil], fun _ => ?_, by simp [going], by simp [status]⟩
      obtain ⟨inner, act, hacts, hmain, hfunctions⟩ := rooted.split
      refine ⟨inner, act, hacts, hmain, ?_⟩
      intro f hf
      obtain ⟨name, hname⟩ := hfunctions f hf
      have hmem : f ∈ m.activations := by simp [hacts, hf]
      obtain ⟨d, hd⟩ := known_of_placed uses.reachable.placed hmem hname
      exact ⟨name, d, hname, hd⟩
    | ended finished nothing calm => simp [finished, nothing, calm]
  · intro r m₁ hsteps
    obtain ⟨m₀, m₂, hquiet, htick, rfl⟩ := hsteps.of_record
    refine ⟨m₀, m₂, hquiet, htick, rfl, ?_⟩
    intro hends
    simp [settled, hends.nothing htick]
  -- a step of a finished machine looks at nothing else, so it may be of any program
  · intro finished
    obtain ⟨hrests, hended⟩ := later.rests finished
    refine ⟨hrests, hended, ?_⟩
    intro other fuel
    rw [step.eq_def, if_pos hrests.finished]

/-- The test of a condition in a try statement fails, and the handler leaves the program. The test
is evaluated by going up to the first statement, before any step was made. -/
def leaving : Block :=
  .mk
    [.tryCatch
      (.mk [.condition [.mk (.var "missing" 2) (.mk [.noop 3] 2 4)] none 2] 1 5) none
      (.mk [.exit (some (.bool true 6)) 6] 5 7) 1,
      .noop 8]
    0 9

/-- Going up to the first statement leaves a fault pending, and the owner binds a variable. The step
that follows shows the record of the exit, and the ones behind it nothing, cancelled or not. -/
theorem end_is_final_leaving :
    let env : Setting Unit := ⟨Program.link leaving, .default, .null ""⟩
    let m₁ := ((Machine.new (.ofInputs []) ()).advance env (fun _ => false) 9).2
    let m₂ := m₁.withScope (m₁.scope.force "x" .null)
    let m₃ := (m₂.step env 9).2
    let m₄ := (m₃.cancel.step env 9).2
    m₁.pending.isSome = true ∧ m₁.finished = false ∧ m₃.finished = true ∧
      m₃.exitStatus.isSome = true ∧
    ∃ before after, Uses env (Machine.new (.ofInputs []) ()) before m₃ ∧
      Uses env m₃ after m₄ ∧
      before.length = 1 ∧ after.length = 1 ∧ m₃.activations = [] ∧ m₃.pending = none ∧
      Rests m₃ m₄ ∧
      (∀ s ∈ after, s = .ended) ∧ (before ++ after).countP Step.isFailure ≤ 1 := by
  intro env m₁ m₂ m₃ m₄
  have hpending : m₁.pending.isSome = true := by decide +kernel
  have hgoing : m₁.finished = false := by decide +kernel
  have hover : m₃.finished = true := by decide +kernel
  have hstatus : m₃.exitStatus.isSome = true := by decide +kernel
  have hstopped : ((Machine.new (.ofInputs []) ()).advance env (fun _ => false) 9).1 =
      .stopped := by
    decide +kernel
  have hfree : m₁.scope.isConst "x" = false := by decide +kernel
  have hshown : (m₂.step env 9).1.record?.isSome = true := by decide +kernel
  obtain ⟨r, hr⟩ := Option.isSome_iff_exists.mp hshown
  have hset : m₁.scope.set "x" .null = .ok (m₁.scope.force "x" .null) := by
    simp [Scope.set, hfree]
  have hstep : m₃.cancel.step env 9 = (.ended, m₄) := by
    have hfinished : m₃.cancel.finished = true := hover
    simp only [m₄, step.eq_def, hfinished, if_true]
  have uses : Uses env (Machine.new (.ofInputs []) ()) [.record r] m₃ :=
    .cons (.of_stopped hstopped)
      (.cons (.handled (.operate (.set hset))) (.cons (.of_record hr) (.nil m₃)))
  have later : Uses env m₃ [.ended] m₄ :=
    .cons (.handled .cancel) (.cons (.step hstep .ended) (.nil m₄))
  -- from here on only these facts count, not how the machine has come there
  clear_value m₄ m₃
  obtain ⟨⟨hiff, -, hcalm, -⟩, ⟨honce, -⟩, -, hfinal⟩ := end_is_final uses later
  obtain ⟨hrests, hended, -⟩ := hfinal hover
  exact ⟨hpending, hgoing, hover, hstatus, _, _, uses, later, rfl, rfl, hiff.mp hover,
    hcalm hover, hrests, hended, honce⟩

end Machine

end Stepwise
