import Stepwise.Proofs.PausePoints

/-!
# Calls that are cancelled

A session can be cancelled while it hands over a record, and in the wait behind it. Its machine
heeds that in front of the next micro-step, but the session looks for a reason to stop before: a
script that has suspended itself, or a breakpoint on the line where the machine goes on. So **the
call hands over nothing more, but ends as cancelled only if nothing else stops it**
(`cancelled_call_ends`); else the next call does. The look makes no micro-step for a cancelled
machine, so a breakpoint on the closing line of a block stops it, too (`cancelled_call_paused`).

The statement is about one record of a call and what follows it, so the call has to be cut at that
record. `loop_from` does this: the records of a call are those up to any one of them, and from there
on those of the session that shows it. Behind the record the machine halts (`Halting`): it is
cancelled, going, without a fault, and its next line is the one that the record names. For such a
machine the look is a plain case split (`look_of_halting`), and whichever call makes the next step
fails in it.

That a cancellation can pause a call at all is a property of the session as it is, and not one that
its users would expect; the last theorem keeps an input where it happens.
-/

namespace Stepwise

namespace Machine

variable {σ : Type} {env : Setting σ} {m : Machine σ} {line : Line}

/-- A machine that is about to heed its cancellation. There is a unit left and a line to fail on, so
the next micro-step raises the fault that no handler takes. -/
structure Halting (env : Setting σ) (m : Machine σ) (line : Line) : Prop where
  cancelled : m.cancelled = true
  going : m.finished = false
  calm : m.pending = none
  units : m.activations ≠ []
  next : m.nextLine? env = some line

namespace Halting

/-- A step fails at once, on the line that was next. One micro-step is enough, so any fuel is. -/
theorem step (h : Halting env m line) (fuel : Nat) :
    ∃ m', m.step env (fuel + 1) = (.failed ⟨line, .cancelled⟩, m') := by
  have heed : m.heedCancel env = some (m.raise line .cancelled) := by
    simp [heedCancel, h.calm, h.units, h.cancelled, h.next]
  have htick := tick_cancelled heed
  rw [Machine.step, if_neg (by simp [h.going]), htick]
  exact ⟨_, rfl⟩

/-- An advance leaves such a machine where it is: a cancelled machine is not moved up to
anything. -/
theorem advance (h : Halting env m line) (stop : Line → Bool) (fuel : Nat) :
    m.advance env stop fuel = (.stopped, m) := by
  unfold Machine.advance
  simp [h.cancelled]

end Halting

end Machine

namespace Session

open Machine

variable {σ : Type} {env : Setting σ} {s s' : Session σ} {fuel limit i : Nat} {line : Line}
  {r : StepRecord}

/-! ## Statements of a call -/

theorem Advanced.record_of_none {r : Option StepRecord} (h : Advanced env fuel s (r, none, s')) :
    ∃ record, r = some record := by
  cases h with
  | record => exact ⟨_, rfl⟩

theorem Advanced.step_of_record {outcome : Option Outcome}
    (h : Advanced env fuel s (some r, outcome, s')) :
    (s.machine.step env fuel).1 = .record r := by
  cases h with
  | record steps => rw [steps]

/-- From one of its records on, a call is the call of the session that shows it. The induction is on
the number of statements that the call may run, and goes down with the number of the record. -/
theorem loop_from (hr : (s.loop env fuel limit).1[i]? = some r) :
    ∃ rest before, limit = i + rest + 1 ∧ before.length = i ∧
      ((s.after env fuel i).machine.step env fuel).1 = .record r ∧
      s.loop env fuel limit = (before ++ ((s.after env fuel i).loop env fuel (rest + 1)).1,
        ((s.after env fuel i).loop env fuel (rest + 1)).2) := by
  induction limit generalizing s i with
  | zero => cases hr
  | succ limit ih =>
    rcases hadvance : s.advance env fuel with ⟨first, outcome, s₁⟩
    have hadvanced := advance_cases env fuel s
    rw [hadvance] at hadvanced
    have hloop := hr
    simp only [loop, hadvance] at hloop
    cases i with
    | zero =>
      refine ⟨limit, [], by omega, rfl, ?_, rfl⟩
      -- the first record of the call is that of its first statement, however the call goes on
      have hfirst : first = some r := by
        cases outcome with
        | some o =>
          cases first with
          | none => simp at hloop
          | some record => simpa using hloop
        | none =>
          obtain ⟨record, rfl⟩ := hadvanced.record_of_none
          simpa using hloop
      subst hfirst
      exact hadvanced.step_of_record
    | succ i =>
      -- there is a later record, so the first statement has not ended the call
      cases outcome with
      | some o =>
        cases first <;> cases hloop
      | none =>
        obtain ⟨record, rfl⟩ := hadvanced.record_of_none
        have hrest : (s₁.loop env fuel limit).1[i]? = some r := by simpa using hloop
        obtain ⟨rest, before, hlimit, hlength, hstep, heq⟩ := ih hrest
        have hafter : s.after env fuel (i + 1) = s₁.after env fuel i := by
          rw [after, hadvance]
        rw [hafter]
        refine ⟨rest, record :: before, by omega, by simp [hlength], hstep, ?_⟩
        simp [loop, hadvance, heq]

/-! ## Sessions that are cancelled -/

/-- The call of a session whose machine halts ends at once. Its first statement is the one that
fails, and a call that fails with a cancellation says that it was cancelled. -/
theorem loop_of_halting (h : Halting env s.machine line) (fuel limit : Nat) :
    ∃ s', s.loop env (fuel + 1) (limit + 1) = ([], .cancelled, s') := by
  obtain ⟨m', hstep⟩ := h.step fuel
  refine ⟨{ s with machine := m' }, ?_⟩
  simp [loop, advance, hstep, Fault.isTerminal]

/-- The next call resumes the machine, and halts. Resuming takes back a suspension but not a
cancellation. -/
theorem run_of_halting (h : Halting env s.machine line) (fuel limit : Nat) :
    (s.run env (fuel + 1) (limit + 1)).1.records = [] ∧
      (s.run env (fuel + 1) (limit + 1)).1.outcome = .cancelled := by
  have hstart : Halting env s.start.machine line :=
    ⟨h.cancelled, h.going, h.calm, h.units, h.next⟩
  obtain ⟨s', hloop⟩ := loop_of_halting hstart fuel limit
  simp [run, hloop]

/-- A look at a machine that halts makes no micro-step, and stops for the line it sees. The line is
where the machine would go on, so it can be one on which there is nothing to run. -/
theorem look_of_halting (h : Halting env s.machine line) (fuel : Nat) :
    s.look env fuel = (if s.machine.suspended then some (.suspended line)
      else if line ∈ s.breakpoints then some (.paused line) else none, s) := by
  simp only [look, h.advance, h.going, h.next]
  by_cases hsuspended : s.machine.suspended = true
  · simp [hsuspended]
  · by_cases hnamed : line ∈ s.breakpoints <;> simp [hsuspended, hnamed]

/-- A session that is cancelled behind a record halts where the record says. Handing over the record
and waiting may both have cancelled it, and neither of them does anything else to the machine. -/
theorem halting_of_record {m : Machine σ} (hstep : s.machine.step env fuel = (.record r, m))
    (cancelled : ({ s with machine := m } : Session σ).hand.pass.machine.cancelled = true)
    (going : m.finished = false) :
    Halting env ({ s with machine := m } : Session σ).hand.pass.machine r.nextLine ∧
      ({ s with machine := m } : Session σ).hand.pass.machine.suspended = m.suspended := by
  obtain ⟨hcalm, hnext, hunits⟩ := step_record hstep
  rcases hand_pass_machine { s with machine := m } with hm | hm <;> rw [hm] at cancelled ⊢
  · exact ⟨⟨cancelled, going, hcalm, hunits going, hnext⟩, rfl⟩
  · exact ⟨⟨cancelled, going, hcalm, hunits going, hnext⟩, rfl⟩

theorem Advanced.breakpoints {a : Option StepRecord × Option Outcome × Session σ}
    (h : Advanced env fuel s a) :
    a.2.2.breakpoints = s.breakpoints := by
  cases h with
  | ended | failed | defect | outOfFuel => rfl
  | @record _ m _ _ _ looked =>
    have hpassed := pass_breakpoints ({ s with machine := m } : Session σ).hand
    cases looked <;> exact hpassed

theorem after_breakpoints (env : Setting σ) (fuel i : Nat) (s : Session σ) :
    (s.after env fuel i).breakpoints = s.breakpoints := by
  induction i generalizing s with
  | zero => rfl
  | succ i ih => exact (ih _).trans (advance_cases env fuel s).breakpoints

/-- How a call ends that is cancelled behind the record `r` of its first statement, with the session
`t` left. The order of the cases is that of the look: a suspension comes before a breakpoint, and
the cancellation last. -/
inductive CutOff (r : StepRecord) (suspended : Bool) (breakpoints : List Line) (t : Session σ) :
    List StepRecord × Outcome × Session σ → Prop where
  | suspended (h : suspended = true) :
      CutOff r suspended breakpoints t ([r], .suspended r.nextLine, t)
  | paused (h : suspended = false) (named : r.nextLine ∈ breakpoints) :
      CutOff r suspended breakpoints t ([r], .paused r.nextLine, t)
  | cancelled (h : suspended = false) (clear : r.nextLine ∉ breakpoints) (s' : Session σ) :
      CutOff r suspended breakpoints t ([r], .cancelled, s')

/-- The call of a session that is cancelled behind its first record. It may run two statements at
least: the second is the one that would fail, and a call that may not make it ends for want of
statements. -/
theorem loop_cutOff {m : Machine σ} {breakpoints : List Line} {t : Session σ}
    (hstep : s.machine.step env (fuel + 1) = (.record r, m)) (hs : s.breakpoints = breakpoints)
    (ht : ({ s with machine := m } : Session σ).hand.pass = t)
    (cancelled : t.machine.cancelled = true) (going : m.finished = false) (limit : Nat) :
    CutOff r m.suspended breakpoints t (s.loop env (fuel + 1) (limit + 2)) := by
  obtain ⟨halting, hsuspended⟩ := halting_of_record hstep (ht ▸ cancelled) going
  have hbreakpoints : t.breakpoints = s.breakpoints := ht ▸ pass_breakpoints _
  rw [hs] at hbreakpoints
  rw [ht] at halting hsuspended
  have hadvance : s.advance env (fuel + 1) = (some r, t.look env (fuel + 1)) := by
    simp only [advance, hstep, ht]
  rw [look_of_halting halting, hsuspended, hbreakpoints] at hadvance
  by_cases hm : m.suspended = true
  · rw [if_pos hm] at hadvance
    simp only [loop, hadvance]
    exact .suspended hm
  rw [if_neg hm] at hadvance
  by_cases hnamed : r.nextLine ∈ breakpoints
  · rw [if_pos hnamed] at hadvance
    simp only [loop, hadvance]
    exact .paused (by simpa using hm) hnamed
  · rw [if_neg hnamed] at hadvance
    obtain ⟨s', hrest⟩ := loop_of_halting halting fuel limit
    rw [loop, hadvance]
    simp only [hrest]
    exact .cancelled (by simpa using hm) hnamed s'

/-- **A call that is cancelled hands over nothing more.** Take any session, with any breakpoints,
and any record of a call that may go on behind it. Let the session be cancelled while the record is
handed over, or in the wait behind it, with a machine that is not finished. Then the record is the
last one of the call. If the script has suspended itself with this statement, the call says so;
else, if the line where the machine goes on is a breakpoint, it pauses there; and else it ends as
cancelled. In the first two cases the next call ends so, and has no record. -/
theorem cancelled_call_ends (env : Setting σ) (s : Session σ) (fuel limit i : Nat)
    (r : StepRecord) (hr : (s.run env fuel limit).1.records[i]? = some r) (room : i + 1 < limit) :
    let u := s.start.after env fuel i
    let m := (u.machine.step env fuel).2
    let t := ({ u with machine := m } : Session σ).hand.pass
    let report := (s.run env fuel limit).1
    t.machine.cancelled = true → m.finished = false →
      report.records.length = i + 1 ∧
      (m.suspended = true → report.outcome = .suspended r.nextLine) ∧
      (m.suspended = false → r.nextLine ∈ s.breakpoints →
        report.outcome = .paused r.nextLine) ∧
      (m.suspended = false → r.nextLine ∉ s.breakpoints → report.outcome = .cancelled) ∧
      (m.suspended = true ∨ r.nextLine ∈ s.breakpoints → ∀ limit', 0 < limit' →
        ((s.run env fuel limit).2.run env fuel limit').1.records = [] ∧
        ((s.run env fuel limit).2.run env fuel limit').1.outcome = .cancelled) := by
  intro u m t report cancelled going
  obtain ⟨rest, before, hlimit, hlength, hstep, hloop⟩ := loop_from hr
  obtain ⟨rest, rfl⟩ : ∃ n, rest = n + 1 := ⟨rest - 1, by omega⟩
  have hrecord : u.machine.step env fuel = (.record r, m) := Prod.ext hstep rfl
  -- without fuel there would be no record
  rcases fuel with _ | fuel
  · rw [Machine.step.eq_def] at hstep
    split at hstep <;> cases hstep
  have hs : u.breakpoints = s.breakpoints := after_breakpoints env (fuel + 1) i s.start
  have hcut : CutOff r m.suspended s.breakpoints t (u.loop env (fuel + 1) (rest + 2)) :=
    loop_cutOff hrecord hs rfl cancelled going rest
  have halting := (halting_of_record hrecord cancelled going).1
  have hrecords : report.records = before ++ (u.loop env (fuel + 1) (rest + 2)).1 :=
    congrArg Prod.fst hloop
  have houtcome : report.outcome = (u.loop env (fuel + 1) (rest + 2)).2.1 :=
    congrArg (fun call => call.2.1) hloop
  have hleft : (s.run env (fuel + 1) limit).2 = (u.loop env (fuel + 1) (rest + 2)).2.2 :=
    congrArg (fun call => call.2.2) hloop
  have hnext : ∀ limit', 0 < limit' →
      (t.run env (fuel + 1) limit').1.records = [] ∧
      (t.run env (fuel + 1) limit').1.outcome = .cancelled := by
    intro limit' hpos
    obtain ⟨n, rfl⟩ : ∃ n, limit' = n + 1 := ⟨limit' - 1, by omega⟩
    exact run_of_halting halting fuel n
  rw [hrecords, houtcome, hleft]
  generalize u.loop env (fuel + 1) (rest + 2) = call at hcut ⊢
  cases hcut with
  | suspended h =>
    refine ⟨by simp [hlength], fun _ => rfl, ?_, ?_, fun _ => hnext⟩
    · simp [h]
    · simp [h]
  | paused h named =>
    refine ⟨by simp [hlength], ?_, fun _ _ => rfl, ?_, fun _ => hnext⟩
    · simp [h]
    · simp [named]
  | cancelled h clear =>
    refine ⟨by simp [hlength], ?_, ?_, fun _ _ => rfl, ?_⟩
    · simp [h]
    · simp [clear]
    · simp [h, clear]

/-- A script that waits on its first line. -/
def waiting : Block :=
  .mk [.delay (.num 5 1) 1, .noop 2] 0 3

/-- The session is cancelled in the wait, and nothing else stops the call. -/
theorem cancelled_call_ends_waiting :
    let env : Setting Unit := ⟨Program.link waiting, .default, .null ""⟩
    let s := Session.new (Machine.new .empty ()) [1, 3] ⟨none, some 2⟩
    let u := s.start.after env 9 0
    let m := (u.machine.step env 9).2
    let t := ({ u with machine := m } : Session Unit).hand.pass
    ∃ r, (s.run env 9 9).1.records[0]? = some r ∧ r.line = 1 ∧ r.nextLine = 2 ∧
      u.machine.cancelled = false ∧ t.machine.cancelled = true ∧ m.finished = false ∧
      (s.run env 9 9).1.records.length = 1 ∧ (s.run env 9 9).1.outcome = .cancelled := by
  intro env s u m t
  have h : ((s.run env 9 9).1.records[0]?).map (fun r => (r.line, r.nextLine)) = some (1, 2) := by
    decide +kernel
  have hbefore : u.machine.cancelled = false := by decide +kernel
  have hcancelled : t.machine.cancelled = true := by decide +kernel
  have hgoing : m.finished = false := by decide +kernel
  have hawake : m.suspended = false := by decide +kernel
  obtain ⟨r, hr, hlines⟩ := Option.map_eq_some_iff.mp h
  obtain ⟨hline, hnext⟩ := Prod.ext_iff.mp hlines
  have hclear : r.nextLine ∉ s.breakpoints := by
    rw [show r.nextLine = 2 from hnext]
    decide
  obtain ⟨hlength, -, -, hends, -⟩ :=
    cancelled_call_ends env s 9 9 0 r hr (by decide) hcancelled hgoing
  exact ⟨r, hr, hline, hnext, hbefore, hcancelled, hgoing, hlength, hends hawake hclear⟩

/-- A loop whose body closes on line 3. -/
def circling : Block :=
  .mk [.cycle (.bool true 1) (.mk [.assign [.var "a" 2] .set [.bool true 2] 2] 1 3) 1] 0 4

/-- The session is cancelled while the record of line 2 is handed over. Its call is not over as
cancelled: it pauses on the closing line of the body, where no statement is. -/
theorem cancelled_call_paused :
    let env : Setting Unit := ⟨Program.link circling, .default, .null ""⟩
    let s := Session.new (Machine.new .empty ()) [3] ⟨some 1, none⟩
    let call := s.run env 9 9
    s.machine.cancelled = false ∧ call.1.records.map StepRecord.line = [2] ∧
      call.2.machine.cancelled = true ∧ call.2.machine.finished = false ∧
      call.1.outcome = .paused 3 := by
  intro env s call
  have hline : call.1.outcome.pauseLine? = some 3 := by decide +kernel
  refine ⟨rfl, ?_, ?_, ?_, Outcome.eq_of_pauseLine? hline⟩
  · decide +kernel
  · decide +kernel
  · decide +kernel

end Session

end Stepwise
