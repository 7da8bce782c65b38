import Stepwise.Proofs.Driving
import Stepwise.Session

/-!
# Pausing is transparent

A session looks at its machine between two statements: it waits, it pauses at breakpoints, it stops
where the script suspends itself and goes on when it is called again. To the machine all of this is
commands, so a session is a machine that is driven (`run_driven`), and **its calls hand over the
records of one plain run**, whatever the breakpoints.

## From calls to commands

`Proofs/Driving` compares a driven machine with one that only makes steps. What is left to do here
is to read a call of a session as a list of commands. One statement of a call is a step, then the
record is handed over and the time that the script asked for passes, then the session looks ahead
(`Advanced.driven`). A call is a number of these and an end, and many calls are one list of commands
(`runs_driven`). How a call ended must be seen from the results of its steps, as this is all the
comparison knows about; `Closes` says which end leaves which result.

Nobody cancels in this module. What a cancellation does to a session is said in
`Proofs/CancelledCalls`.

The two inversions `look_cases` and `advance_cases` say once what a look and a statement can come
to. `Proofs/Breakpoints` and `Proofs/OrderedRuns` start from them as well.
-/

namespace Stepwise

namespace Cancellation

/-- Nobody cancels. -/
def never : Cancellation := ⟨none, none⟩

end Cancellation

namespace Machine

variable {σ : Type} {env : Setting σ} {m : Machine σ}

theorem drive_append (commands commands' : List Command) (m : Machine σ) :
    drive env (commands ++ commands') m =
      ((drive env commands m).1 ++ (drive env commands' (drive env commands m).2).1,
        (drive env commands' (drive env commands m).2).2) := by
  induction commands generalizing m with
  | nil => rfl
  | cons command rest ih =>
    cases command with
    | step fuel =>
      simp only [List.cons_append, drive, ih]
      split <;> rfl
    | _ => simp only [List.cons_append, drive, ih]

theorem Reachable.drive (linked : env.program.Linked) (h : Reachable env m)
    (commands : List Command) : Reachable env (drive env commands m).2 := by
  induction commands generalizing m with
  | nil => exact h
  | cons command rest ih =>
    cases command with
    | step fuel => exact ih (h.step linked fuel).2
    | advance stop fuel => exact ih (h.advance linked stop fuel).2
    | nextLine => exact ih h
    | takeDelay => exact ih (h.handled .takeDelay)
    | resume => exact ih (h.handled .resume)
    | cancel => exact ih (h.handled .cancel)

end Machine

namespace Session

open Machine

variable {σ : Type} {env : Setting σ} {s s₁ s' : Session σ}

/-! ## A session drives its machine -/

/-- A session comes to another by commands to its machine; its steps have these results. Which
commands it were does not matter to anybody, so they are not part of it. -/
structure Driven (env : Setting σ) (s : Session σ) (results : List Step)
    (s' : Session σ) : Prop where
  commands : ∃ commands, .cancel ∉ commands ∧
    drive env commands s.machine = (results, s'.machine)
  never : s'.cancellation = .never

namespace Driven

theorem trans {results results' : List Step} (h : Driven env s results s₁)
    (h' : Driven env s₁ results' s') : Driven env s (results ++ results') s' := by
  obtain ⟨commands, hcancel, hdrive⟩ := h.commands
  obtain ⟨commands', hcancel', hdrive'⟩ := h'.commands
  refine ⟨⟨commands ++ commands', ?_, ?_⟩, h'.never⟩
  · simp [hcancel, hcancel']
  · rw [drive_append, hdrive, hdrive']

theorem reachable {results : List Step} (h : Driven env s results s') (linked : env.program.Linked)
    (reach : Reachable env s.machine) : Reachable env s'.machine := by
  obtain ⟨commands, -, hdrive⟩ := h.commands
  have hreach := reach.drive linked commands
  rwa [hdrive] at hreach

end Driven

/-- How the end of a call shows in the results of its steps. A session that completes has seen the
end by looking ahead, or by a step that had nothing left to do. -/
inductive Closes : Outcome → List Step → Machine σ → Prop where
  /-- The end was seen by looking ahead. -/
  | completed {m : Machine σ} (finished : m.finished = true) :
      Closes (.completed m.exitStatus) [] m
  | ended {m : Machine σ} (finished : m.finished = true) :
      Closes (.completed m.exitStatus) [.ended] m
  | failed {m : Machine σ} (f : Failure) (finished : m.finished = true) :
      Closes (.failed f) [.failed f] m
  | cancelled (f : Failure) (m : Machine σ) : Closes .cancelled [.failed f] m
  | paused (line : Line) (m : Machine σ) : Closes (.paused line) [] m
  | suspended (line : Line) (m : Machine σ) : Closes (.suspended line) [] m
  | outOfFuel (m : Machine σ) : Closes .outOfFuel [] m

namespace Closes

variable {o : Outcome} {tail : List Step} {m : Machine σ}

theorem records (h : Closes o tail m) : tail.filterMap Step.record? = [] := by
  cases h <;> rfl

/-- A call that leaves the session open has no result behind its records. -/
theorem tail_eq_nil (h : Closes o tail m) (ho : o.isFinal = false) : tail = [] := by
  cases h with
  | paused => rfl
  | suspended => rfl
  | _ => cases ho

theorem of_completed {status : Option Value} (h : Closes (.completed status) tail m) :
    m.finished = true ∧ status = m.exitStatus ∧ ∀ f, .failed f ∉ tail := by
  cases h with
  | completed finished => exact ⟨finished, rfl, nofun⟩
  | ended finished => exact ⟨finished, rfl, by simp⟩

theorem of_failed {f : Failure} (h : Closes (.failed f) tail m) :
    m.finished = true ∧ .failed f ∈ tail := by
  cases h with
  | failed _ finished => exact ⟨finished, List.mem_singleton_self _⟩

end Closes

/-- Where a look stops before a header. -/
def stops (s : Session σ) (line : Line) : Bool :=
  s.machine.suspended || s.breakpoints.contains line

/-- What a look comes to. Each constructor has all that the session has tested on the way there, so
that nobody has to open `look` again. -/
inductive Looked (env : Setting σ) (fuel : Nat) (s : Session σ) :
    Option Outcome × Session σ → Prop where
  | completed {m : Machine σ} (stopped : s.machine.advance env s.stops fuel = (.stopped, m))
      (finished : m.finished = true) :
      Looked env fuel s (some (.completed m.exitStatus), { s with machine := m })
  | suspended {m : Machine σ} {line : Line}
      (stopped : s.machine.advance env s.stops fuel = (.stopped, m)) (going : m.finished = false)
      (next : m.nextLine? env = some line) (suspended : s.machine.suspended = true) :
      Looked env fuel s (some (.suspended line), { s with machine := m })
  | paused {m : Machine σ} {line : Line}
      (stopped : s.machine.advance env s.stops fuel = (.stopped, m)) (going : m.finished = false)
      (next : m.nextLine? env = some line) (awake : s.machine.suspended = false)
      (named : s.breakpoints.contains line = true) :
      Looked env fuel s (some (.paused line), { s with machine := m })
  | passed {m : Machine σ} {line : Line}
      (stopped : s.machine.advance env s.stops fuel = (.stopped, m)) (going : m.finished = false)
      (next : m.nextLine? env = some line) (awake : s.machine.suspended = false)
      (clear : s.breakpoints.contains line = false) :
      Looked env fuel s (none, { s with machine := m })
  | outOfFuel {m : Machine σ} (stopped : s.machine.advance env s.stops fuel = (.outOfFuel, m)) :
      Looked env fuel s (some .outOfFuel, { s with machine := m })
  | defect {how : Advance} {m : Machine σ}
      (stopped : s.machine.advance env s.stops fuel = (how, m))
      (lost : how = .defect ∨ m.nextLine? env = none) :
      Looked env fuel s (some .defect, { s with machine := m })

theorem look_cases (env : Setting σ) (fuel : Nat) (s : Session σ) :
    Looked env fuel s (s.look env fuel) := by
  have hstops : (fun line => s.machine.suspended || s.breakpoints.contains line) = s.stops := rfl
  unfold look
  dsimp only
  rw [hstops]
  rcases hadvance : s.machine.advance env s.stops fuel with ⟨how, m⟩
  cases how with
  | defect => exact .defect hadvance (.inl rfl)
  | outOfFuel => exact .outOfFuel hadvance
  | stopped =>
    dsimp only
    cases hm : m.finished with
    | true => exact .completed hadvance hm
    | false =>
      rcases hnext : m.nextLine? env with _ | line
      · exact .defect hadvance (.inr hnext)
      dsimp only
      cases hsuspended : s.machine.suspended with
      | true => exact .suspended hadvance hm hnext hsuspended
      | false =>
        cases hnamed : s.breakpoints.contains line with
        | true => exact .paused hadvance hm hnext hsuspended hnamed
        | false => exact .passed hadvance hm hnext hsuspended hnamed

theorem Looked.machine {fuel : Nat} {r : Option Outcome × Session σ} (h : Looked env fuel s r) :
    r.2.machine = (s.machine.advance env s.stops fuel).2 ∧ r.2.cancellation = s.cancellation := by
  cases h with
  | completed stopped => exact ⟨by rw [stopped], rfl⟩
  | suspended stopped => exact ⟨by rw [stopped], rfl⟩
  | paused stopped => exact ⟨by rw [stopped], rfl⟩
  | passed stopped => exact ⟨by rw [stopped], rfl⟩
  | outOfFuel stopped => exact ⟨by rw [stopped], rfl⟩
  | defect stopped => exact ⟨by rw [stopped], rfl⟩

/-- The end of a look has no result of a step, and cannot be a defect in a linked program. A look
makes quiet micro-steps only, which show nothing. -/
theorem Looked.closes {fuel : Nat} {r : Option Outcome × Session σ} (h : Looked env fuel s r)
    (linked : env.program.Linked) (reach : Reachable env s.machine) {o : Outcome}
    (ho : r.1 = some o) : Closes o [] r.2.machine := by
  obtain ⟨hdefect, hreach⟩ := reach.advance linked s.stops fuel
  cases h with
  | completed _ finished =>
    cases ho
    exact .completed finished
  | suspended =>
    cases ho
    exact .suspended _ _
  | paused =>
    cases ho
    exact .paused _ _
  | passed => cases ho
  | outOfFuel =>
    cases ho
    exact .outOfFuel _
  | defect stopped lost =>
    rw [stopped] at hdefect hreach
    rcases lost with rfl | hlost
    · exact absurd rfl hdefect
    · obtain ⟨line, hline⟩ := nextLine?_of_placed linked hreach.placed
      rw [hlost] at hline
      cases hline

/-- If nobody cancels, handing over a record leaves the machine alone, and so does waiting, but for
the delay that is taken. -/
theorem hand_machine (h : s.cancellation = .never) :
    s.hand.machine = s.machine ∧ s.hand.cancellation = .never := by
  simp [hand, h, Cancellation.never]

theorem pass_machine (h : s.cancellation = .never) :
    s.pass.machine = s.machine.takeDelay.2 ∧ s.pass.cancellation = .never := by
  have hnone : s.cancellation.atTime = none := by rw [h]; rfl
  unfold pass
  rcases s.machine.takeDelay with ⟨delay, m⟩
  cases delay with
  | none => simp [yield, isDue, h, Cancellation.never]
  | some ns =>
    simp only [wait, hnone]
    split <;> exact ⟨rfl, h⟩

/-- What one statement of a call comes to. -/
inductive Advanced (env : Setting σ) (fuel : Nat) (s : Session σ) :
    Option StepRecord × Option Outcome × Session σ → Prop where
  | ended {m : Machine σ} (steps : s.machine.step env fuel = (.ended, m)) :
      Advanced env fuel s (none, some (.completed m.exitStatus), { s with machine := m })
  | failed {f : Failure} {m : Machine σ} (steps : s.machine.step env fuel = (.failed f, m)) :
      Advanced env fuel s
        (none, some (if f.fault.isTerminal then .cancelled else .failed f), { s with machine := m })
  | defect {m : Machine σ} (steps : s.machine.step env fuel = (.defect, m)) :
      Advanced env fuel s (none, some .defect, { s with machine := m })
  | outOfFuel {m : Machine σ} (steps : s.machine.step env fuel = (.outOfFuel, m)) :
      Advanced env fuel s (none, some .outOfFuel, { s with machine := m })
  | record {r : StepRecord} {m : Machine σ} {outcome : Option Outcome} {s' : Session σ}
      (steps : s.machine.step env fuel = (.record r, m))
      (looked : Looked env fuel { s with machine := m }.hand.pass (outcome, s')) :
      Advanced env fuel s (some r, outcome, s')

theorem advance_cases (env : Setting σ) (fuel : Nat) (s : Session σ) :
    Advanced env fuel s (s.advance env fuel) := by
  unfold advance
  rcases hstep : s.machine.step env fuel with ⟨step, m⟩
  cases step with
  | ended => exact .ended hstep
  | failed f => exact .failed hstep
  | defect => exact .defect hstep
  | outOfFuel => exact .outOfFuel hstep
  | record r => exact .record hstep (look_cases env fuel _)

/-- One statement is a step, and behind its record a delay is taken and a look made. So it is three
commands to the machine, of which only the first has a result. -/
theorem Advanced.driven {fuel : Nat} {r : Option StepRecord} {outcome : Option Outcome}
    (h : Advanced env fuel s (r, outcome, s')) (linked : env.program.Linked)
    (reach : Reachable env s.machine) (never : s.cancellation = .never) :
    ∃ tail, Driven env s (r.toList.map .record ++ tail) s' ∧ (outcome = none → tail = []) ∧
      ∀ o, outcome = some o → Closes o tail s'.machine := by
  obtain ⟨hdefect, hreach⟩ := reach.step linked fuel
  have single : Machine.Command.cancel ∉ [Machine.Command.step fuel] := by simp
  cases h with
  | @ended m steps =>
    refine ⟨[.ended], ⟨⟨[.step fuel], single, ?_⟩, never⟩,
      fun h => absurd h (Option.some_ne_none _), ?_⟩
    · simp only [drive, steps]
      rfl
    · rintro _ ⟨⟩
      exact .ended (finished_of_step steps .ended rfl)
  | @failed f m steps =>
    refine ⟨[.failed f], ⟨⟨[.step fuel], single, ?_⟩, never⟩,
      fun h => absurd h (Option.some_ne_none _), ?_⟩
    · simp only [drive, steps]
      rfl
    · rintro _ ⟨⟩
      split
      · exact .cancelled f m
      · exact .failed f (finished_of_step steps (.failed f) rfl)
  -- a linked program makes no defect
  | defect steps =>
    rw [steps] at hdefect
    exact absurd rfl hdefect
  | @outOfFuel m steps =>
    refine ⟨[], ⟨⟨[.step fuel], single, ?_⟩, never⟩, fun _ => rfl, ?_⟩
    · simp only [drive, steps]
      rfl
    · rintro _ ⟨⟩
      exact .outOfFuel m
  | @record r m outcome s' steps looked =>
    rw [steps] at hreach
    -- a step, the delay, and the look: three commands, of which only the first has a result
    let t : Session σ := { s with machine := m }
    obtain ⟨hhand, hnever⟩ := hand_machine (s := t) never
    obtain ⟨hpass, hnever'⟩ := pass_machine hnever
    obtain ⟨hmachine, hcancellation⟩ := looked.machine
    rw [hhand] at hpass
    rw [hpass] at hmachine
    refine ⟨[],
      ⟨⟨[.step fuel, .takeDelay, .advance t.hand.pass.stops fuel], by simp, ?_⟩, ?_⟩,
      fun _ => rfl, ?_⟩
    · rw [hmachine]
      simp only [drive, steps]
      rfl
    · exact hcancellation.trans hnever'
    · intro o ho
      refine looked.closes linked ?_ ho
      rw [hpass]
      exact hreach.handled .takeDelay

/-- The statements of a call hand over records, and then the call ends. The induction is on the
number of statements that the call may still run. -/
theorem loop_driven (linked : env.program.Linked) (reach : Reachable env s.machine)
    (never : s.cancellation = .never) (fuel limit : Nat) :
    ∃ tail,
      Driven env s ((s.loop env fuel limit).1.map .record ++ tail) (s.loop env fuel limit).2.2 ∧
        Closes (s.loop env fuel limit).2.1 tail (s.loop env fuel limit).2.2.machine := by
  induction limit generalizing s with
  | zero => exact ⟨[], ⟨⟨[], nofun, rfl⟩, never⟩, .outOfFuel _⟩
  | succ limit ih =>
    rcases hadvance : s.advance env fuel with ⟨r, outcome, s₁⟩
    have hadvanced := advance_cases env fuel s
    rw [hadvance] at hadvanced
    obtain ⟨tail, hdriven, hnone, hcloses⟩ := hadvanced.driven linked reach never
    simp only [loop, hadvance]
    cases outcome with
    | some o => exact ⟨tail, hdriven, hcloses o rfl⟩
    | none =>
      obtain rfl := hnone rfl
      obtain ⟨tail, hrest, hcloses⟩ := ih (hdriven.reachable linked reach) hdriven.never
      refine ⟨tail, ?_, hcloses⟩
      have hdriven' := hdriven.trans hrest
      simpa using hdriven'

/-- A call starts by going on from where the session was suspended, which is a command, too. -/
theorem run_driven (linked : env.program.Linked) (reach : Reachable env s.machine)
    (never : s.cancellation = .never) (fuel limit : Nat) :
    ∃ tail, Driven env s ((s.run env fuel limit).1.records.map .record ++ tail)
        (s.run env fuel limit).2 ∧
      Closes (s.run env fuel limit).1.outcome tail (s.run env fuel limit).2.machine := by
  have start : Driven env s [] s.start := ⟨⟨[.resume], by simp, rfl⟩, never⟩
  obtain ⟨tail, hdriven, hcloses⟩ :=
    loop_driven linked (start.reachable linked reach) never fuel limit
  exact ⟨tail, start.trans hdriven, hcloses⟩

/-- Many calls are one drive. Its results end with those of the last call, and have no failure
before unless the session was called on after its end. -/
theorem runs_driven (linked : env.program.Linked) (reach : Reachable env s.machine)
    (never : s.cancellation = .never) (fuel limit : Nat) (always : Bool) (calls : Nat) :
    ∃ results s', Driven env s results s' ∧
      results.filterMap Step.record? =
        (s.runs env fuel limit always calls).flatMap (fun call => call.1.records) ∧
      (s.runs env fuel limit always calls = [] → results = [] ∧ s' = s) ∧
      ∀ report t, (s.runs env fuel limit always calls).getLast? = some (report, t) → t = s' ∧
        ∃ before tail, results = before ++ tail ∧ Closes report.outcome tail t.machine ∧
          (always = false → ∀ f, .failed f ∉ before) := by
  have records : ∀ rs : List StepRecord, (rs.map Step.record).filterMap Step.record? = rs := by
    intro rs
    rw [List.filterMap_map]
    exact List.filterMap_some
  induction calls generalizing s with
  | zero =>
    refine ⟨[], s, ⟨⟨[], by simp, rfl⟩, never⟩, by simp [runs],
      fun _ => ⟨rfl, rfl⟩, ?_⟩
    simp [runs]
  | succ calls ih =>
    obtain ⟨tail, hdriven, hcloses⟩ := run_driven linked reach never fuel limit
    rcases hrun : s.run env fuel limit with ⟨report, s₁⟩
    rw [hrun] at hdriven hcloses
    dsimp only at hdriven hcloses
    have hfirst : (report.records.map Step.record ++ tail).filterMap Step.record? =
        report.records := by
      rw [List.filterMap_append, records, hcloses.records, List.append_nil]
    have hunfailed : ∀ f, Step.failed f ∉ report.records.map Step.record := by simp
    simp only [runs, hrun]
    -- calls stop behind a final outcome, unless the session is called on all the same
    by_cases hfinal : (report.outcome.isFinal && !always) = true
    · simp only [if_pos hfinal]
      refine ⟨_, s₁, hdriven, by simp [hfirst], nofun, ?_⟩
      rintro _ _ ⟨⟩
      exact ⟨rfl, _, tail, rfl, hcloses, fun _ => hunfailed⟩
    · simp only [if_neg hfinal]
      obtain ⟨results, s', hrest, hrecords, hnone, hlast⟩ :=
        ih (hdriven.reachable linked reach) hdriven.never
      refine ⟨_, s', hdriven.trans hrest, ?_, nofun, ?_⟩
      · rw [List.filterMap_append, hfirst, hrecords, List.flatMap_cons]
      intro last t ht
      -- a call that is not the last has not ended the session, unless it was called on
      have hbefore : always = false →
          ∀ f, .failed f ∉ report.records.map Step.record ++ tail := by
        intro halways
        have hopen : report.outcome.isFinal = false := by simpa [halways] using hfinal
        rw [hcloses.tail_eq_nil hopen, List.append_nil]
        exact hunfailed
      rcases hruns : s₁.runs env fuel limit always calls with _ | ⟨next, later⟩
      · rw [hruns] at ht
        cases ht
        obtain ⟨rfl, rfl⟩ := hnone hruns
        refine ⟨rfl, _, tail, List.append_nil _, hcloses, fun _ => hunfailed⟩
      · rw [hruns, List.getLast?_cons_cons, ← hruns] at ht
        obtain ⟨rfl, before, tail', rfl, hcloses', hunfailed'⟩ := hlast last t ht
        refine ⟨rfl, _, tail', (List.append_assoc _ _ _).symm, hcloses', ?_⟩
        intro halways f hf
        rcases List.mem_append.mp hf with hf | hf
        · exact hbefore halways f hf
        · exact hunfailed' halways f hf

/-! ## The run of a session -/

/-- **Pausing is transparent.** Take any script, options, host and scope, and a machine at its
start.

The calls of a session, with any breakpoints, hand over the first records of its plain run. Where a
call completes or fails, they are all of them, and the plain run comes to the same end in the same
state, but for what a machine asks of its owner.

The steps of a machine that is driven by any commands short of cancelling it have the results of
plain steps, and the plain machine lags behind by quiet micro-steps at most; where the driven one is
finished, one more plain step ends the run in the same state. Going up to the next statement
swallows nothing. -/
theorem pausing_transparent (script : Block) (options : Options) (host : Host σ) (scope : Scope)
    (world : σ) :
    let env : Setting σ := ⟨Program.link script, options, host⟩
    let fresh : Machine σ := Machine.new scope world
    (∀ (breakpoints : List Line) (fuel limit : Nat) (always : Bool) (calls : Nat),
      let reports := (Session.new fresh breakpoints .never).runs env fuel limit always calls
      let handed := reports.flatMap fun call => call.1.records
      (∃ bound, ∀ fuel', bound ≤ fuel' → (fresh.run env fuel' handed.length).1 = handed) ∧
      ∀ report s, reports.getLast? = some (report, s) →
        (∀ status, report.outcome = .completed status → ∃ e final bound,
          (∀ fuel' limit', bound ≤ fuel' → bound ≤ limit' →
            fresh.run env fuel' limit' = (handed, e, final)) ∧
          Alike final s.machine ∧ status = final.exitStatus ∧
          (always = false → e = .ended)) ∧
        ∀ f, report.outcome = .failed f → ∃ final bound,
          (∀ fuel' limit', bound ≤ fuel' → bound ≤ limit' →
            fresh.run env fuel' limit' = (handed, .failed f, final)) ∧
          Alike final s.machine) ∧
    ∀ commands, .cancel ∉ commands →
      let results := (drive env commands fresh).1
      let m := (drive env commands fresh).2
      (∃ p bound,
        (∀ fuel, bound ≤ fuel → fresh.steps env fuel results.length = (results, p)) ∧
        Lags env p m) ∧
      (m.finished = true → ∃ p bound, (∀ fuel, bound ≤ fuel →
        fresh.steps env fuel (results.length + 1) = (results ++ [.ended], p)) ∧ Alike p m) ∧
      ∀ stop fuel, Quiet env m (m.advance env stop fuel).2 := by
  intro env fresh
  have linked : env.program.Linked := Program.linked_link script
  have reach : Reachable env fresh := .new scope world
  refine ⟨?_, ?_⟩
  -- the calls of a session are commands to its machine, and what holds of commands holds of them
  · intro breakpoints fuel limit always calls reports handed
    obtain ⟨results, s', ⟨⟨commands, hcancel, hdrive⟩, -⟩, hrecords, -, hlast⟩ :=
      runs_driven (s := Session.new fresh breakpoints .never) linked reach rfl fuel limit
        always calls
    obtain ⟨p, hplain, hlags⟩ := drive_plain linked reach (Lags.refl fresh) hcancel
    have hdrive' : drive env commands fresh = (results, s'.machine) := hdrive
    have hhanded : results.filterMap Step.record? = handed := hrecords
    rw [hdrive'] at hplain hlags
    refine ⟨hhanded ▸ hplain.run_eq, ?_⟩
    intro report s hs
    obtain ⟨rfl, before, tail, rfl, hcloses, hbefore⟩ := hlast report s hs
    refine ⟨?_, ?_⟩
    · intro status hstatus
      rw [hstatus] at hcloses
      obtain ⟨hfinished, rfl, hunfailed⟩ := hcloses.of_completed
      obtain ⟨e, final, hruns, halike, -, hended⟩ := hplain.ending hlags hfinished
      obtain ⟨bound, hrun⟩ := hruns.run_eq
      refine ⟨e, final, bound, hhanded ▸ hrun, halike, halike.exitStatus, ?_⟩
      intro halways
      apply hended
      intro f hf
      rcases List.mem_append.mp hf with hf | hf
      · exact hbefore halways f hf
      · exact hunfailed f hf
    · intro f hf
      -- the failure was among the results of the last call, so it is how the plain run ends
      rw [hf] at hcloses
      obtain ⟨hfinished, hfailed⟩ := hcloses.of_failed
      obtain ⟨e, final, hruns, halike, hfails, -⟩ := hplain.ending hlags hfinished
      obtain rfl := hfails f (List.mem_append_right _ hfailed)
      obtain ⟨bound, hrun⟩ := hruns.run_eq
      exact ⟨final, bound, hhanded ▸ hrun, halike⟩
  · intro commands hcancel results m
    obtain ⟨p, hplain, hlags⟩ := drive_plain linked reach (Lags.refl fresh) hcancel
    refine ⟨?_, ?_, ?_⟩
    · obtain ⟨bound, hsteps⟩ := hplain.steps_eq
      exact ⟨p, bound, hsteps, hlags⟩
    -- the driven machine may be ahead by quiet micro-steps, which one more plain step makes up for
    · intro hfinished
      obtain ⟨p', hend, halike⟩ := hlags.ended hfinished
      obtain ⟨bound, hsteps⟩ := (hplain.append (.cons .ended hend (.nil p'))).steps_eq
      rw [List.length_append] at hsteps
      exact ⟨p', bound, hsteps, halike⟩
    · intro stop fuel
      exact advance_quiet ((reach.drive linked commands).advance linked stop fuel).1

end Session

end Stepwise
