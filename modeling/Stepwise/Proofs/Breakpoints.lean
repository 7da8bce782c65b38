import Stepwise.Proofs.Pausing
import Stepwise.Proofs.ScopeMoves

/-!
# Breakpoints

A session looks for breakpoints between two steps, and what it sees is the statement in front. One
step may run many micro-steps, though: a statement that calls a function, or fails, is left before
it is done, and the step goes on into the body of the function or into a handler, up to the record
of a statement there. So **a breakpoint is run through only where a step is diverted**
(`run_through_diverted`), and there it is (`function_run_through`); however else a statement is
reached, the session pauses before it.

The argument has three parts.

1. What a look knows when it goes on: a statement is in front, or a fault looks for a handler, and
   the line where the machine goes on is no breakpoint (`Passed`). That a header can be in front is
   ruled out by how far an advance goes: it stops at one only on a line that is a breakpoint.
2. What one micro-step makes of a statement in front: it is done and its record shows its own line,
   or a fault is raised, or a function called (`Done`, `tick_done`). There is nothing in between,
   because a simple statement is run in one piece.
3. A step is at least this micro-step, so the record it comes to is the one of the statement in
   front, or the step was diverted (`line_of_step`).

Nobody may cancel the session for this. A session that is cancelled looks at nothing any more, and
`Proofs/CancelledCalls` says what its calls do instead.
-/

namespace Stepwise

namespace Machine

variable {σ : Type} {env : Setting σ} {m m' : Machine σ}

/-- The statement in front is left before it is done. In each case the record that the step comes to
is that of a statement which nobody has looked at. -/
inductive Diverted (env : Setting σ) (m : Machine σ) : Prop where
  /-- A fault looks for a handler already. -/
  | fault (h : m.pending.isSome = true)
  | raises (h : (m.tick env).2.pending.isSome = true)
  | calls (h : m.activations.length < (m.tick env).2.activations.length)

/-! ## What a look knows

`ahead?` says what the next micro-step is about to do, and `nextLine?` on which line the machine
goes on. Both read the frame in front, so what one of them answers is compared with the other by
going through the kinds of frames. -/

/-- Where a header is in front, the machine goes on at the line of this header. In all other phases
of a structured statement frames are moved around, and there is no header to show. -/
theorem nextLine?_of_header {line : Line} (h : m.ahead? env = some (.header line)) :
    m.nextLine? env = some line := by
  unfold ahead? at h
  unfold nextLine?
  rcases hm : m.activations with _ | ⟨⟨u, frames, subroutines, saved⟩, callers⟩ <;>
    rw [hm] at h
  · cases h
  dsimp only at h ⊢
  rcases frames with _ | ⟨⟨kind, replay⟩, below⟩
  · cases h
  -- the two functions look the statement up in the same way
  have header : ∀ place : StmtPath,
      (env.program.stmt? u place).map (fun s => Ahead.header s.line) = some (.header line) →
      (env.program.stmt? u place).map Stmt.line = some line := by
    intro place hplace
    obtain ⟨stmt, hstmt, hline⟩ := Option.map_eq_some_iff.mp hplace
    cases hline
    rw [hstmt]
    rfl
  cases kind with
  -- a block shows a statement or nothing
  | block path next =>
    obtain ⟨b, -, hb⟩ := Option.map_eq_some_iff.mp h
    split at hb
    · split at hb <;> cases hb
    · cases hb
  | condition place phase =>
    cases phase with
    | test => exact header place h
    | branch => cases h
  | cycle place phase =>
    cases phase with
    | test => exact header place h
    | body => cases h
  | doCycle place phase =>
    cases phase with
    | test => exact header place h
    | body => cases h
  | retry place phase attempt max =>
    cases phase with
    | enter => exact header place h
    | test => exact header place h
    | body => cases h
  | tryCatch place phase => cases h

/-- A statement in front is the next one of a block. Only frames of blocks run simple statements,
and headers show as such. -/
theorem stmt_of_statement (h : m.ahead? env = some .statement) :
    ∃ u path next replay below subroutines saved callers block stmt,
      m.activations =
        ⟨u, ⟨.block path next, replay⟩ :: below, subroutines, saved⟩ :: callers ∧
      env.program.block? u path = some block ∧ block.body[next]? = some stmt ∧
      stmt.isStructured = false := by
  unfold ahead? at h
  rcases hm : m.activations with _ | ⟨⟨u, frames, subroutines, saved⟩, callers⟩ <;>
    rw [hm] at h
  · cases h
  dsimp only at h
  rcases frames with _ | ⟨⟨kind, replay⟩, below⟩
  · cases h
  -- what a phase with an evaluation shows is a header, whatever statement is there
  have header : ∀ place : StmtPath,
      (env.program.stmt? u place).map (fun s => Ahead.header s.line) ≠ some .statement := by
    intro place hplace
    obtain ⟨stmt, -, hstmt⟩ := Option.map_eq_some_iff.mp hplace
    cases hstmt
  cases kind with
  | block path next =>
    obtain ⟨block, hblock, hb⟩ := Option.map_eq_some_iff.mp h
    rcases hstmt : block.body[next]? with _ | stmt <;> rw [hstmt] at hb <;> dsimp only at hb
    · cases hb
    by_cases hs : stmt.isStructured = true
    · rw [if_pos hs] at hb
      cases hb
    · exact ⟨u, path, next, replay, below, subroutines, saved, callers, block, stmt, rfl,
        hblock, hstmt, Bool.not_eq_true _ ▸ hs⟩
  | condition place phase =>
    cases phase with
    | test => exact absurd h (header place)
    | branch => cases h
  | cycle place phase =>
    cases phase with
    | test => exact absurd h (header place)
    | body => cases h
  | doCycle place phase =>
    cases phase with
    | test => exact absurd h (header place)
    | body => cases h
  | retry place phase attempt max =>
    cases phase with
    | enter => exact absurd h (header place)
    | test => exact absurd h (header place)
    | body => cases h
  | tryCatch place phase => cases h

/-- An advance that stops has a reason where it stops. The reasons are those for which it makes no
micro-step; behind a micro-step that ends the run it has the one that the run is over. -/
theorem advance_stays {stop : Line → Bool} {fuel : Nat}
    (h : m.advance env stop fuel = (.stopped, m')) : Stays env stop m' := by
  induction fuel generalizing m with
  | zero =>
    unfold advance at h
    split at h
    · rename_i hstays
      cases h
      simp only [Bool.or_eq_true] at hstays
      rcases hstays with (hfinished | hpending) | hcancelled
      · exact .finished hfinished
      · exact .fault hpending
      · exact .cancelled hcancelled
    · cases h
  | succ fuel ih =>
    rcases advance_cases env stop fuel m
      with ⟨hstopped, hstays⟩ | ⟨hdefect, -⟩ | ⟨hbehind, hgoes⟩
    · rw [hstopped] at h
      cases h
      exact hstays
    · rw [hdefect] at h
      cases h
    · rw [hbehind] at h
      have hquiet := hgoes.tick_quiet
      rcases htick : m.tick env with ⟨t, m₁⟩
      rw [htick] at h hquiet
      -- an advance makes no micro-step that shows a record or fails, so three ticks are left
      rcases hquiet with rfl | rfl | rfl
      · exact ih h
      · cases h
        exact .finished rfl
      · cases h

/-! ## Nobody cancels

The flag is set by the owner of a machine alone, so steps and advances leave it as it is. -/

theorem step_cancelled (env : Setting σ) (fuel : Nat) (m : Machine σ) :
    (m.step env fuel).2.cancelled = m.cancelled := by
  induction fuel generalizing m with
  | zero =>
    unfold step
    split <;> rfl
  | succ fuel ih =>
    have htouched := (Touches.tick env m).cancelled
    unfold step
    split
    · rfl
    rcases htick : m.tick env with ⟨t, m₁⟩
    rw [htick] at htouched
    cases t with
    | running => exact (ih m₁).trans htouched
    | _ => exact htouched

theorem advance_cancelled (env : Setting σ) (stop : Line → Bool) (fuel : Nat) (m : Machine σ) :
    (m.advance env stop fuel).2.cancelled = m.cancelled := by
  induction fuel generalizing m with
  | zero =>
    unfold advance
    split <;> rfl
  | succ fuel ih =>
    have htouched := (Touches.tick env m).cancelled
    rcases advance_cases env stop fuel m
      with ⟨hstopped, -⟩ | ⟨hdefect, -⟩ | ⟨hbehind, -⟩
    · rw [hstopped]
    · rw [hdefect]
    · rw [hbehind]
      rcases htick : m.tick env with ⟨t, m₁⟩
      rw [htick] at htouched
      cases t with
      | running => exact (ih m₁).trans htouched
      | _ => exact htouched

/-! ## The statement in front -/

/-- What one micro-step makes of the statement in front: it is done and shows its own line, or a
fault is raised, or a function called. `depth` is the number of units before it, and a call shows in
that it grows. That the position leads nowhere is kept as a case, so nothing has to be known of the
program. -/
inductive Done (line : Line) (depth : Nat) : Tick × Machine σ → Prop where
  | record {r : StepRecord} (m : Machine σ) (h : r.line = line) : Done line depth (.record r, m)
  | raises {m : Machine σ} (h : m.pending.isSome = true) : Done line depth (.running, m)
  | calls {m : Machine σ} (h : depth < m.activations.length) : Done line depth (.running, m)
  | defect (m : Machine σ) : Done line depth (.defect, m)

theorem recorded_done (m : Machine σ) (line : Line) (value : Option Value) (depth : Nat) :
    Done line depth (m.recorded env line value) := by
  unfold recorded
  split
  · exact .record m rfl
  · exact .defect m

/-- A statement that is done is recorded, also if it jumps, returns or ends the run. Only a jump to
a label that is missing raises a fault, and then there is no record. -/
theorem apply_done (m : Machine σ) (line : Line) (effect : Effect) (depth : Nat) :
    Done line depth (m.apply env line effect) := by
  cases effect with
  | jump label =>
    rcases hjump : m.jump env label with _ | f | m₁ <;> simp only [apply, hjump]
    · exact .defect m
    · exact .raises rfl
    · exact recorded_done m₁ line none depth
  | sub label =>
    rcases hgosub : m.gosub env label with _ | f | m₁ <;> simp only [apply, hgosub]
    · exact .defect m
    · exact .raises rfl
    · exact recorded_done m₁ line none depth
  | value => exact recorded_done ..
  | ret => exact recorded_done ..
  | exit status => exact recorded_done (m.terminate status) line status depth
  | delay => exact recorded_done ..
  | suspend => exact recorded_done ..

/-- A statement that stops raises a fault or calls a function. A call that is refused is a fault, so
which of the two it is shows only in the machine behind the micro-step. -/
theorem interrupt_done (env : Setting σ) (m : Machine σ) (line : Line) (i : Interrupt) :
    Done line m.activations.length (.running, m.interrupt env line i) := by
  cases i with
  | fault f => exact .raises rfl
  | call name args =>
    simp only [interrupt, callFunction]
    rcases env.program.function? name with _ | d
    · exact .raises rfl
    by_cases hdepth : env.options.maxCallDepth < m.activations.length
    · simp only [if_pos hdepth]
      exact .raises rfl
    by_cases hargs : d.params.length ≠ args.length
    · simp only [if_neg hdepth, if_pos hargs]
      exact .raises rfl
    simp only [if_neg hdepth, if_neg hargs]
    rcases bindParams m.scope [] (d.params.zip args) with ⟨f | saved, scope⟩
    · exact .raises rfl
    · exact .calls (Nat.lt_succ_self _)

/-- **A statement in front is done in one micro-step, or left in it.** The line that its record
shows is the one where the machine was about to go on, which is what a session looks at. -/
theorem tick_done (hahead : m.ahead? env = some .statement) (hcalm : m.pending = none)
    (heeded : m.cancelled = false) :
    ∃ line, m.nextLine? env = some line ∧ Done line m.activations.length (m.tick env) := by
  obtain ⟨u, path, next, replay, below, subroutines, saved, callers, block, stmt, hm, hblock,
    hstmt, hs⟩ :=
    stmt_of_statement hahead
  have hheed : m.heedCancel env = some m := by
    simp [heedCancel, heeded]
  -- Neither the store nor the frames in front have a part in the number of units, so the depth that
  -- the interrupt sees is that of `m`.
  have hlength : ∀ (store : Store σ) (frames : List Frame),
      ({ m with store }.withFrames frames).activations.length = m.activations.length := by
    intro store frames
    simp [withFrames, mapTop, hm]
  refine ⟨stmt.line, ?_, ?_⟩
  · simp [nextLine?, hm, hblock, Block.lineAt, hstmt]
  · have htick : m.tick env = m.runBlock env u path next replay below := by
      simp only [tick, hheed, hcalm, hm]
    rw [htick]
    simp only [runBlock, hblock, hstmt, hs, Bool.false_eq_true, if_false]
    rcases stmt.execute env m.store replay with _ | ⟨result, replay', store⟩
    · exact .defect m
    cases result with
    | ok effect => exact apply_done _ _ effect _
    | error i =>
      have hdone := interrupt_done env
        ({ m with store }.withFrames (⟨.block path next, replay'⟩ :: below)) stmt.line i
      rw [hlength] at hdone
      exact hdone

/-- A step from where a look passes shows the line that was looked at, unless it is diverted. A
fault that is pending already diverts it, since its handler is anywhere. -/
theorem line_of_step {fuel : Nat} {r : StepRecord} (hgoing : m.finished = false)
    (heeded : m.cancelled = false)
    (hfront : m.pending.isSome = true ∨ m.ahead? env = some .statement)
    (hstep : m.step env fuel = (.record r, m')) :
    Diverted env m ∨ m.nextLine? env = some r.line := by
  rcases hpending : m.pending with _ | failure
  · rcases hfront with hfault | hahead
    · rw [hpending] at hfault
      cases hfault
    obtain ⟨line, hline, hdone⟩ := tick_done hahead hpending heeded
    rw [step.eq_def, hgoing] at hstep
    rcases fuel with _ | fuel
    · cases hstep
    rcases htick : m.tick env with ⟨t, m₁⟩
    rw [htick] at hdone
    simp only [htick, Bool.false_eq_true, if_false] at hstep
    cases hdone with
    | record _ h =>
      cases hstep
      rw [hline, h]
      exact .inr rfl
    | raises h => exact .inl (.raises (by rw [htick]; exact h))
    | calls h => exact .inl (.calls (by rw [htick]; exact h))
    | defect => cases hstep
  · exact .inl (.fault (by rw [hpending]; rfl))

end Machine

namespace Session

open Machine

variable {σ : Type} {env : Setting σ} {s s' : Session σ}

/-! ## One call -/

/-- The session after a number of statements of one call. It follows `loop` without collecting
records, so that the machine in front of each of them can be spoken of. -/
def after (env : Setting σ) (fuel : Nat) : Nat → Session σ → Session σ
  | 0, s => s
  | n + 1, s => after env fuel n (s.advance env fuel).2.2

theorem pass_breakpoints (s : Session σ) : s.pass.breakpoints = s.breakpoints := by
  unfold pass
  rcases s.machine.takeDelay with ⟨delay, m⟩
  cases delay with
  | none =>
    simp only [yield]
    split <;> rfl
  | some ns =>
    simp only [wait]
    split
    · rfl
    split
    · split <;> rfl
    · rfl

/-- A session that nobody cancels, with these breakpoints. All that a session does keeps this. The
breakpoints are named because the theorem compares those of a later session with those at the
start. -/
structure Watches (breakpoints : List Line) (s : Session σ) : Prop where
  breakpoints : s.breakpoints = breakpoints
  never : s.cancellation = .never
  heeded : s.machine.cancelled = false

/-- A session whose look went on: what is in front is on none of its breakpoints. What is in front
is a statement, unless a fault looks for a handler, for which there is nothing to look at. -/
structure Passed (env : Setting σ) (s : Session σ) : Prop where
  going : s.machine.finished = false
  clear : ∃ line, s.machine.nextLine? env = some line ∧ s.breakpoints.contains line = false
  front : s.machine.pending.isSome = true ∨ s.machine.ahead? env = some .statement

namespace Watches

variable {breakpoints : List Line}

theorem withMachine (h : Watches breakpoints s) {m : Machine σ}
    (heeded : m.cancelled = s.machine.cancelled) : Watches breakpoints { s with machine := m } :=
  ⟨h.breakpoints, h.never, heeded.trans h.heeded⟩

theorem hand (h : Watches breakpoints s) : Watches breakpoints s.hand := by
  obtain ⟨hmachine, hnever⟩ := hand_machine h.never
  exact ⟨h.breakpoints, hnever, by rw [hmachine, h.heeded]⟩

theorem pass (h : Watches breakpoints s) : Watches breakpoints s.pass := by
  obtain ⟨hmachine, hnever⟩ := pass_machine h.never
  exact ⟨(pass_breakpoints s).trans h.breakpoints, hnever, by rw [hmachine]; exact h.heeded⟩

theorem looked {fuel : Nat} {r : Option Outcome × Session σ} (h : Watches breakpoints s)
    (looked : Looked env fuel s r) : Watches breakpoints r.2 := by
  have heeded := advance_cancelled env s.stops fuel s.machine
  cases looked with
  | completed stopped => exact h.withMachine (by rw [stopped] at heeded; exact heeded)
  | suspended stopped => exact h.withMachine (by rw [stopped] at heeded; exact heeded)
  | paused stopped => exact h.withMachine (by rw [stopped] at heeded; exact heeded)
  | passed stopped => exact h.withMachine (by rw [stopped] at heeded; exact heeded)
  | outOfFuel stopped => exact h.withMachine (by rw [stopped] at heeded; exact heeded)
  | defect stopped => exact h.withMachine (by rw [stopped] at heeded; exact heeded)

/-- A look goes on only where a fault looks for a handler, or a statement is in front. It stops in
front of a header on a breakpoint, and goes past any other header. -/
theorem passed {fuel : Nat} (h : Watches breakpoints s) (looked : Looked env fuel s (none, s')) :
    Passed env s' := by
  have heeded := h.looked looked |>.heeded
  cases looked with
  | @passed m line stopped going next awake clear =>
    refine ⟨going, ⟨line, next, clear⟩, ?_⟩
    cases advance_stays stopped with
    | finished hfinished =>
      rw [going] at hfinished
      cases hfinished
    | fault hfault => exact .inl hfault
    | cancelled hcancelled =>
      rw [hcancelled] at heeded
      cases heeded
    | statement hahead => exact .inr hahead
    | @header line' hahead named =>
      -- the header would be on the line that was looked at, and that is no breakpoint
      rw [nextLine?_of_header hahead] at next
      cases next
      simp only [stops, awake, clear] at named
      cases named

/-- One statement of a call: the session still watches, its look has passed if the call goes on, and
its record is that of a step. -/
theorem advanced {fuel : Nat} {r : Option StepRecord} {outcome : Option Outcome}
    (h : Watches breakpoints s) (advanced : Advanced env fuel s (r, outcome, s')) :
    Watches breakpoints s' ∧
      (outcome = none → Passed env s' ∧ ∃ record, r = some record) ∧
        ∀ record, r = some record → (s.machine.step env fuel).1 = .record record := by
  have heeded := step_cancelled env fuel s.machine
  cases advanced with
  | ended steps => exact ⟨h.withMachine (by rw [steps] at heeded; exact heeded), nofun, nofun⟩
  | failed steps => exact ⟨h.withMachine (by rw [steps] at heeded; exact heeded), nofun, nofun⟩
  | defect steps => exact ⟨h.withMachine (by rw [steps] at heeded; exact heeded), nofun, nofun⟩
  | outOfFuel steps =>
    exact ⟨h.withMachine (by rw [steps] at heeded; exact heeded), nofun, nofun⟩
  | record steps looked =>
    rw [steps] at heeded
    have hnext := (h.withMachine heeded).hand.pass
    refine ⟨hnext.looked looked, ?_, ?_⟩
    · rintro rfl
      exact ⟨hnext.passed looked, _, rfl⟩
    · rintro record ⟨⟩
      rw [steps]

/-- Every record of a call is that of a step of its session, and before all but the first the
session has looked. The induction is on the number of statements that the call may still run. -/
theorem loop {fuel limit i : Nat} {r : StepRecord} (h : Watches breakpoints s)
    (hr : (s.loop env fuel limit).1[i]? = some r) :
    ((s.after env fuel i).machine.step env fuel).1 = .record r ∧
      Watches breakpoints (s.after env fuel i) ∧ (0 < i → Passed env (s.after env fuel i)) := by
  induction limit generalizing s i with
  | zero => cases hr
  | succ limit ih =>
    rcases hadvance : s.advance env fuel with ⟨first, outcome, s₁⟩
    have hadvanced := advance_cases env fuel s
    rw [hadvance] at hadvanced
    obtain ⟨hwatches, hpassed, hstep⟩ := h.advanced hadvanced
    simp only [Session.loop, hadvance] at hr
    -- the first record is that of the step in front, whether the call goes on behind it or not
    have hfirst : i = 0 → first = some r →
        ((s.after env fuel i).machine.step env fuel).1 = .record r ∧
          Watches breakpoints (s.after env fuel i) ∧
          (0 < i → Passed env (s.after env fuel i)) := by
      rintro rfl hr
      exact ⟨hstep r hr, h, fun hlt => absurd hlt (Nat.lt_irrefl 0)⟩
    cases outcome with
    | some o =>
      rcases first with _ | first
      · cases hr
      rcases i with _ | i
      · exact hfirst rfl hr
      · cases hr
    | none =>
      obtain ⟨hlooked, first, rfl⟩ := hpassed rfl
      rcases i with _ | i
      · exact hfirst rfl hr
      have hafter : s.after env fuel (i + 1) = s₁.after env fuel i := by
        rw [after, hadvance]
      obtain ⟨hstep', hwatches', hpassed'⟩ := ih hwatches hr
      rw [hafter]
      refine ⟨hstep', hwatches', fun _ => ?_⟩
      rcases i with _ | i
      · exact hlooked
      · exact hpassed' (Nat.succ_pos i)

end Watches

/-- **A breakpoint is run through only where a step is diverted.** Take a session that nobody
cancels, and any record of one of its calls but the first. Before the step that shows it, the
session has looked at a line that is no breakpoint. The record is on that line, unless a fault is
raised or a function called before the statement in front is done. -/
theorem run_through_diverted (env : Setting σ) (s : Session σ) (fuel limit i : Nat)
    (r : StepRecord) (never : s.cancellation = .never) (heeded : s.machine.cancelled = false)
    (hr : (s.run env fuel limit).1.records[i + 1]? = some r) :
    let m := (s.start.after env fuel (i + 1)).machine
    (m.step env fuel).1 = .record r ∧
      (∃ line, m.nextLine? env = some line ∧ line ∉ s.breakpoints ∧
        (m.Diverted env ∨ r.line = line)) ∧
      (r.line ∈ s.breakpoints → m.Diverted env) := by
  intro m
  have hstart : Watches s.breakpoints s.start := ⟨rfl, never, heeded⟩
  obtain ⟨hstep, hwatches, hpassed⟩ := hstart.loop hr
  obtain ⟨hgoing, ⟨line, hline, hclear⟩, hfront⟩ := hpassed (Nat.succ_pos i)
  have hnot : line ∉ s.breakpoints := by
    rw [hwatches.breakpoints] at hclear
    simpa using hclear
  have hreason : m.Diverted env ∨ r.line = line := by
    rcases line_of_step hgoing hwatches.heeded hfront (Prod.ext hstep rfl) with hdiverted | hsame
    · exact .inl hdiverted
    · rw [hline] at hsame
      cases hsame
      exact .inr rfl
  refine ⟨hstep, ⟨line, hline, hnot, hreason⟩, ?_⟩
  intro hbreak
  rcases hreason with hdiverted | rfl
  · exact hdiverted
  · exact absurd hbreak hnot

/-- A call of a function whose only statement is on line 3. -/
def calling : Block :=
  .mk
    [.function "f" [] (.mk [.assign [.var "a" 3] .set [.bool true 3] 3] 2 4) 2,
      .call "f" [] 5]
    0 5

/-- The body of the function is run through, though there is a breakpoint in it. -/
theorem function_run_through :
    let env : Setting Unit := ⟨Program.link calling, .default, .null ""⟩
    let s := Session.new (Machine.new .empty ()) [3] .never
    ((s.run env 9 9).1.records.map StepRecord.line) = [2, 3, 5] := by
  decide +kernel

/-- The step that runs through the breakpoint calls the function. -/
theorem run_through_diverted_calling :
    let env : Setting Unit := ⟨Program.link calling, .default, .null ""⟩
    let s := Session.new (Machine.new .empty ()) [3] .never
    let m := (s.start.after env 9 1).machine
    ∃ r, (s.run env 9 9).1.records[1]? = some r ∧ r.line = 3 ∧
      (m.step env 9).1 = .record r ∧
      (∃ line, m.nextLine? env = some line ∧ line ∉ s.breakpoints ∧
        (m.Diverted env ∨ r.line = line)) ∧
      (r.line ∈ s.breakpoints → m.Diverted env) := by
  intro env s m
  have h : ((s.run env 9 9).1.records[1]?).map StepRecord.line = some 3 := by decide +kernel
  obtain ⟨r, hr, hline⟩ := Option.map_eq_some_iff.mp h
  exact ⟨r, hr, hline, run_through_diverted env s 9 9 0 r rfl rfl hr⟩

end Session

end Stepwise
