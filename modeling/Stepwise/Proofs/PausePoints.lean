import Stepwise.Proofs.Breakpoints
import Stepwise.Proofs.Ending
import Stepwise.Proofs.Simulation.Simple

/-!
# Where a session pauses

A session that looks for breakpoints asks for the line where its machine goes on. The closing line
of a block is such a line, too, and so is that of a header that has just failed, so it does not
follow from the line alone that something there is about to run. It follows from how the machine has
come there: going up to the next statement ends in front of one, or at a header on a breakpoint, or
with a fault; and the fault is that of a header on a line that is no breakpoint. So **a pause is in
front of something that runs on this line** (`paused_in_front`).

A retry shows its line for its test also where it has none. No run comes there, which is an
invariant of its own.

## Layout

The first section has this invariant, `Tested`, by the rules of `Moves`: only a body that is done
brings the test of a retry in front, and the machine then looks whether there is one. The second
says what "about to run" means. It is told by what the next micro-step does, and not by frames:
`AtStatement` has the equation for the micro-step that executes a statement, `AtHeader` those for
the five evaluations that headers make.

The third section follows `advance`, which goes up to the next statement. Its main lemma is
`advance_calm`: if a fault stops it, then on a line that the session was to pass over. The last two
go up from there to sessions: behind a record no fault is pending, so each look starts calm, and a
pause is never at a fault. `Proofs/CancelledCalls` reuses how calls of a session are made of
micro-steps.
-/

namespace Stepwise

open Relation Activation

namespace Outcome

/-- The line of a pause. Outcomes are compared through it in runs on fixed scripts. -/
def pauseLine? : Outcome → Option Line
  | .paused line => some line
  | _ => none

theorem eq_of_pauseLine? {o : Outcome} {line : Line} (h : o.pauseLine? = some line) :
    o = .paused line := by
  cases o with
  | paused =>
    cases h
    rfl
  | _ => cases h

end Outcome

/-! ## Retries that test -/

namespace FrameKind

/-- The frame of a retry whose body is done. -/
def isRetest : FrameKind → Bool
  | .retry _ .test _ _ => true
  | _ => false

/-- Such a frame belongs to a retry with a test. The kinds of other frames are not restricted. -/
def Tested (p : Program) (u : CodeUnit) (kind : FrameKind) : Prop :=
  kind.isRetest = true → ∃ place attempts body test line, kind.place? = some place ∧
    p.stmt? u place = some (.retry attempts body (some test) line)

end FrameKind

/-- All frames of a stack are so. `Activation.Tested` says it of the stacks that were put aside as
well, since a return brings one of them in front again. -/
def Frame.Tested (p : Program) (u : CodeUnit) (frames : List Frame) : Prop :=
  ∀ f ∈ frames, f.kind.Tested p u

structure Activation.Tested (p : Program) (act : Activation) : Prop where
  frames : Frame.Tested p act.unit act.frames
  aside : ∀ stack ∈ act.subroutines, Frame.Tested p act.unit stack

namespace Frame

variable {p : Program} {u : CodeUnit}

namespace Tested

theorem nil : Tested p u [] := List.forall_mem_nil _

theorem cons_iff {f : Frame} {frames : List Frame} :
    Tested p u (f :: frames) ↔ f.kind.Tested p u ∧ Tested p u frames := List.forall_mem_cons

theorem append {above below : List Frame} (h : Tested p u above) (h' : Tested p u below) :
    Tested p u (above ++ below) := List.forall_mem_append.mpr ⟨h, h'⟩

theorem of_append {above below : List Frame} (h : Tested p u (above ++ below)) : Tested p u below :=
  (List.forall_mem_append.mp h).2

theorem hold {kind : FrameKind} {replay : List Value} {below : List Frame}
    (h : Tested p u (⟨kind, replay⟩ :: below)) (replay' : List Value) :
    Tested p u (⟨kind, replay'⟩ :: below) := by
  obtain ⟨hkind, hbelow⟩ := cons_iff.mp h
  exact cons_iff.mpr ⟨hkind, hbelow⟩

/-- Frames that a statement starts with are none of these. -/
theorem fresh {frames : List Frame} (h : ∀ f ∈ frames, f.kind.isRetest = false) :
    Tested p u frames := by
  intro f hf htest
  rw [h f hf] at htest
  cases htest

theorem block (path : BlockPath) (next : Nat) (replay : List Value) {below : List Frame}
    (h : Tested p u below) : Tested p u (⟨.block path next, replay⟩ :: below) :=
  cons_iff.mpr ⟨nofun, h⟩

theorem enter (stmt : Stmt) (place : StmtPath) : Tested p u (Frame.enter stmt place) := by
  apply fresh
  unfold Frame.enter
  split <;> simp [Frame.new, Frame.block, FrameKind.isRetest]

theorem around (stmt : Stmt) (place : StmtPath) (sel : BlockSel) :
    Tested p u (Frame.around stmt place sel) := by
  apply fresh
  unfold Frame.around
  split <;> simp [Frame.new, FrameKind.isRetest]

theorem handler (h : Handler) : Tested p u h.frames := by
  apply fresh
  cases h <;> simp [Handler.frames, Frame.new, Frame.block, FrameKind.isRetest]

/-- Jumping into a block puts the frames of the statements around it on the stack, and each is in
its body then. -/
theorem descend {b : Block} {path rest : BlockPath} {next : Nat} {below frames : List Frame}
    (hbelow : Tested p u below) (h : Frame.descend b path next below rest = some frames) :
    Tested p u frames := by
  induction rest generalizing b path below with
  | nil =>
    cases h
    exact .block _ _ _ hbelow
  | cons turn rest ih =>
    obtain ⟨index, sel⟩ := turn
    obtain ⟨c, hc⟩ := follow?_of_descend h
    obtain ⟨stmt, child, hstmt, hchild, -⟩ := Block.follow?_cons_eq_some.mp hc
    rw [descend_cons hstmt hchild] at h
    exact ih ((around stmt _ sel).append (.block _ _ _ hbelow)) h

theorem resume {root : Block} {target : StmtPath} {frames : List Frame}
    (h : Frame.resume root target = some frames) : Tested p u frames :=
  descend .nil h

end Tested

/-- Only where a body is done comes such a frame in front. That case is a premise, as it depends on
what the machine looks up and not on frames. -/
theorem Shift.tested {frames frames' : List Frame} (shifts : Shift p u frames frames')
    (h : Tested p u frames)
    (turn : ∀ place attempt max replay below, frames =
      ⟨.retry place .body attempt max, replay⟩ :: below →
        frames' = ⟨.retry place .test attempt max, replay⟩ :: below →
      (FrameKind.retry place .test attempt max).Tested p u) : Tested p u frames' := by
  cases shifts with
  | hold => exact h.hold _
  | pass => exact .block _ _ _ (Tested.cons_iff.mp h).2
  | enter => exact (Tested.enter _ _).append (.block _ _ _ (Tested.cons_iff.mp h).2)
  -- a block starts on a frame that is in its body
  | start _ _ starts =>
    refine .block _ _ _ (Tested.cons_iff.mpr ⟨?_, (Tested.cons_iff.mp h).2⟩)
    cases starts <;> exact nofun
  | turn turns =>
    refine Tested.cons_iff.mpr ⟨?_, (Tested.cons_iff.mp h).2⟩
    cases turns with
    | cycle => exact nofun
    | doCycle => exact nofun
    | retry => exact turn _ _ _ _ _ rfl rfl
  | leave => exact (Tested.cons_iff.mp h).2

end Frame

namespace Machine

variable {σ : Type} {env : Setting σ} {m m' : Machine σ}

theorem mapFrame_tested {p : Program} {acts : List Activation} (h : ∀ act ∈ acts, act.Tested p)
    (values : List Value → List Value) :
    ∀ act ∈ Activation.mapFrame (fun f => { f with replay := values f.replay }) acts,
      act.Tested p := by
  rcases acts with _ | ⟨⟨u, _ | ⟨f, below⟩, subroutines, saved⟩, callers⟩
  · exact h
  · exact h
  · obtain ⟨⟨hframes, haside⟩, hcallers⟩ := List.forall_mem_cons.mp h
    exact List.forall_mem_cons.mpr ⟨⟨hframes.hold _, haside⟩, hcallers⟩

/-- The frames under a handler are a lower part of a stack that was there, and those that the
handler starts with are not at a test. -/
theorem tested_caught {p : Program} {scope : Scope} {acts : List Activation} {c : Caught}
    (found : findCaught scope acts = .ok c) (h : ∀ act ∈ acts, act.Tested p) :
    ∀ act ∈ { c.activation with frames := c.handler.frames ++ c.activation.frames } ::
      c.callers, act.Tested p := by
  obtain ⟨inner, act, newer, above, f, rfl, hstacks, -, hunit, -⟩ := findCaught_ok found
  rw [List.forall_mem_append, List.forall_mem_cons] at h
  obtain ⟨-, ⟨hframes, haside⟩, hcallers⟩ := h
  have hall : ∀ stack ∈ act.frames :: act.subroutines, Frame.Tested p act.unit stack :=
    List.forall_mem_cons.mpr ⟨hframes, haside⟩
  rw [hstacks, List.forall_mem_append, List.forall_mem_cons, ← hunit] at hall
  obtain ⟨-, hstack, holder⟩ := hall
  have hbelow := (Frame.Tested.cons_iff.mp hstack.of_append).2
  exact List.forall_mem_cons.mpr
    ⟨⟨(Frame.Tested.handler _).append hbelow, holder⟩, hcallers⟩

/-- The rules that take frames from the program, jumps and handlers, bring frames of statements that
have just started. -/
theorem Moves.tested {acts acts' : List Activation} (moves : Moves env acts acts')
    (h : ∀ act ∈ acts, act.Tested env.program)
    (turn : ∀ u place attempt max replay below subroutines saved callers,
      acts =
        ⟨u, ⟨.retry place .body attempt max, replay⟩ :: below, subroutines,
          saved⟩ :: callers →
      acts' =
        ⟨u, ⟨.retry place .test attempt max, replay⟩ :: below, subroutines,
          saved⟩ :: callers →
      (FrameKind.retry place .test attempt max).Tested env.program u) :
    ∀ act ∈ acts', act.Tested env.program := by
  cases moves with
  | stay => exact h
  | clear => exact nofun
  | caught found => exact tested_caught found h
  -- the result goes into a replay list, which the property does not speak of
  | back _ _ callers value =>
    exact mapFrame_tested (List.forall_mem_cons.mp h).2 fun replay => replay ++ [value]
  -- the one shift that brings a retry to its test is what `turn` is for
  | shift shifts =>
    obtain ⟨⟨hframes, haside⟩, hcallers⟩ := List.forall_mem_cons.mp h
    refine List.forall_mem_cons.mpr ⟨⟨shifts.tested hframes ?_, haside⟩, hcallers⟩
    rintro place attempt max replay below rfl rfl
    exact turn _ _ _ _ _ _ _ _ _ rfl rfl
  -- a function starts in a block, and its caller keeps its frames
  | call =>
    obtain ⟨⟨hframes, haside⟩, hcallers⟩ := List.forall_mem_cons.mp h
    refine List.forall_mem_cons.mpr ⟨⟨.block _ _ _ .nil, nofun⟩, ?_⟩
    exact List.forall_mem_cons.mpr ⟨⟨hframes.hold _, haside⟩, hcallers⟩
  | jump _ _ resumes =>
    obtain ⟨⟨-, haside⟩, hcallers⟩ := List.forall_mem_cons.mp h
    exact List.forall_mem_cons.mpr ⟨⟨.resume resumes, haside⟩, hcallers⟩
  | gosub _ _ _ resumes =>
    obtain ⟨⟨hframes, haside⟩, hcallers⟩ := List.forall_mem_cons.mp h
    refine List.forall_mem_cons.mpr ⟨⟨.resume resumes, ?_⟩, hcallers⟩
    exact List.forall_mem_cons.mpr ⟨.block _ _ _ (Frame.Tested.cons_iff.mp hframes).2, haside⟩
  | ret =>
    obtain ⟨⟨-, haside⟩, hcallers⟩ := List.forall_mem_cons.mp h
    obtain ⟨hcaller, holder⟩ := List.forall_mem_cons.mp haside
    exact List.forall_mem_cons.mpr ⟨⟨hcaller, holder⟩, hcallers⟩

section

variable {u : CodeUnit} {place : StmtPath} {attempt max : UInt32} {replay : List Value}
  {below : List Frame} {subroutines : List (List Frame)} {saved : List (String × Option Value)}
  {callers : List Activation}

/-- A fault does not come to a test. It ends the run, or comes to a handler or to the body of a
retry, from its start. -/
theorem unwind_front {failure : Failure}
    (front : m.activations =
      ⟨u, ⟨.retry place .body attempt max, replay⟩ :: below, subroutines,
        saved⟩ :: callers) :
    (m.unwind env failure).2.activations ≠
      ⟨u, ⟨.retry place .test attempt max, replay⟩ :: below, subroutines, saved⟩ ::
        callers := by
  unfold unwind
  split
  · simp
  split
  · simp
  · rename_i c hfind
    obtain ⟨m', hhandle, hm'⟩ | ⟨hhandle, -⟩ := handle_cases env m failure c
    · rw [hhandle]
      dsimp only
      rw [hm']
      cases hhandler : c.handler <;> simp [Handler.frames, Frame.block, Frame.new]
    · rw [hhandle]
      simp [front]

/-- A body that is done comes to a test only if there is one. The micro-step is opened here, as the
rule `turn` of `Moves` does not keep the test of the retry. -/
theorem tick_turned
    (front : m.activations =
      ⟨u, ⟨.retry place .body attempt max, replay⟩ :: below, subroutines, saved⟩ :: callers)
    (turned : (m.tick env).2.activations =
      ⟨u, ⟨.retry place .test attempt max, replay⟩ :: below, subroutines,
        saved⟩ :: callers) :
    (FrameKind.retry place .test attempt max).Tested env.program u := by
  obtain hheed | ⟨hheed, -⟩ | ⟨line, hheed⟩ := heedCancel_cases env m
  · rcases hpending : m.pending with _ | failure
    · -- the retry itself decides, and without a test it is left
      simp only [tick, hheed, hpending, front, runRetry] at turned
      split at turned
      · rename_i attempts body test line hstmt
        cases test with
        | some test => exact fun _ => ⟨place, attempts, body, test, line, rfl, hstmt⟩
        | none =>
          dsimp only at turned
          rw [withFrames_activations front] at turned
          -- one of the two stacks has a frame less
          have hlength := congrArg (fun acts => acts.map fun act => act.frames.length) turned
          simp at hlength
      · simp [front] at turned
    · simp only [tick, hheed, hpending] at turned
      exact absurd turned (unwind_front front)
  · simp [tick, hheed, front] at turned
  · simp [tick_cancelled hheed] at turned

end

theorem Reachable.tested (h : Reachable env m) :
    ∀ act ∈ m.activations, act.Tested env.program := by
  induction h using Reachable.run_induction with
  | new => exact List.forall_mem_cons.mpr ⟨⟨.block _ _ _ .nil, nofun⟩, nofun⟩
  | @act m m' _ hact ih =>
    obtain hsame | rfl := hact.cases_activations
    · rw [hsame]
      exact ih
    · refine (tick_moved env m).moves.tested ih ?_
      intro u place attempt max replay below subroutines saved callers front turned
      exact tick_turned front turned

/-! ## What is about to run -/

/-- The next micro-step runs a simple statement on this line: it is done and says what it asks for,
or stops for a call or a fault. Both equations are part of it, so that nothing else can be meant by
"is about to run". -/
inductive AtStatement (env : Setting σ) (m : Machine σ) (line : Line) : Prop where
  | intro {u : CodeUnit} {path : BlockPath} {next : Nat} {replay : List Value} {below : List Frame}
      {subroutines : List (List Frame)} {saved : List (String × Option Value)}
      {callers : List Activation} {stmt : Stmt} {r : Evaluated σ Effect}
      (front : m.activations =
        ⟨u, ⟨.block path next, replay⟩ :: below, subroutines, saved⟩ :: callers)
      (hstmt : env.program.stmt? u ⟨path, next⟩ = some stmt)
      (simple : stmt.isStructured = false) (hline : stmt.line = line)
      (executes : stmt.execute env m.store replay = some r)
      (done : ∀ effect, r.result = .ok effect →
        m.tick env = ({ m with store := r.store }.withFrames
          (⟨.block path (next + 1), r.replay⟩ :: below)).apply env line effect)
      (stops : ∀ i, r.result = .error i →
        m.tick env = (.running, ({ m with store := r.store }.withFrames
          (⟨.block path next, r.replay⟩ :: below)).interrupt env line i)) :
      AtStatement env m line

/-- A frame of this kind is in front, and the next micro-step makes this evaluation for it. With a
value the run goes on with other frames; a fault shows `line`, which for a condition is that of the
branch whose test failed. -/
def Evaluates {α : Type} (env : Setting σ) (m : Machine σ) (u : CodeUnit) (kind : FrameKind)
    (replay : List Value) (line : Line) (r : Except Interrupt α × List Value × Store σ) :
    Prop :=
  ∃ (below : List Frame) (subroutines : List (List Frame)) (saved : List (String × Option Value))
    (callers : List Activation) (frames : α → List Frame),
    m.activations = ⟨u, ⟨kind, replay⟩ :: below, subroutines, saved⟩ :: callers ∧
    m.tick env = m.settle env kind below line r fun m a => m.withFrames (frames a)

/-- The tests of a condition, up to the first that holds. -/
def evalBranches (env : Setting σ) (m : Machine σ) (replay : List Value) (line : Line)
    (branches : List Branch) : (Line × Except Interrupt (Option Nat)) × List Value × Store σ :=
  m.store.run env replay (fun r => Interrupt.isCall r.2) fun c => chooseBranch c line 0 branches

/-- The number of attempts of a retry. -/
def evalAttempts (env : Setting σ) (m : Machine σ) (replay : List Value) (attempts : Expr) :
    Except Interrupt UInt32 × List Value × Store σ :=
  m.store.run env replay Interrupt.isCall fun c =>
    ExceptT.run do Eval.ofExcept (attemptsOf (← Eval.expr c attempts))

/-- The next micro-step evaluates the header of a structured statement on this line. A retry has
two: the number of attempts, and the test behind its body. -/
inductive AtHeader (env : Setting σ) (m : Machine σ) (line : Line) : Prop where
  | condition {u : CodeUnit} {place : StmtPath} {replay : List Value} {branches : List Branch}
      {otherwise : Option Block}
      (stmt : env.program.stmt? u place = some (.condition branches otherwise line))
      (evaluates : Evaluates env m u (.condition place .test) replay
        (m.evalBranches env replay line branches).1.1
        ((m.evalBranches env replay line branches).1.2,
          (m.evalBranches env replay line branches).2))
  | cycle {u : CodeUnit} {place : StmtPath} {replay : List Value} {test : Expr} {body : Block}
      (stmt : env.program.stmt? u place = some (.cycle test body line))
      (evaluates : Evaluates env m u (.cycle place .test) replay (headerLine test line)
        (m.evalTest env replay test))
  | doCycle {u : CodeUnit} {place : StmtPath} {replay : List Value} {test : Expr} {body : Block}
      (stmt : env.program.stmt? u place = some (.doCycle body test line))
      (evaluates : Evaluates env m u (.doCycle place .test) replay (headerLine test line)
        (m.evalTest env replay test))
  | attempts {u : CodeUnit} {place : StmtPath} {replay : List Value} {attempts : Expr}
      {body : Block} {test : Option Expr} {attempt max : UInt32}
      (stmt : env.program.stmt? u place = some (.retry attempts body test line))
      (evaluates : Evaluates env m u (.retry place .enter attempt max) replay
        (headerLine attempts line) (m.evalAttempts env replay attempts))
  | again {u : CodeUnit} {place : StmtPath} {replay : List Value} {attempts : Expr} {body : Block}
      {test : Expr} {attempt max : UInt32}
      (stmt : env.program.stmt? u place = some (.retry attempts body (some test) line))
      (evaluates : Evaluates env m u (.retry place .test attempt max) replay (headerLine test line)
        (m.evalTest env replay test))

/-- No fault is pending, and what is about to run is on this line. -/
structure Faces (env : Setting σ) (m : Machine σ) (line : Line) : Prop where
  calm : m.pending = none
  front : AtStatement env m line ∨ AtHeader env m line

section

variable {u : CodeUnit} {kind : FrameKind} {place : StmtPath} {replay : List Value}
  {below : List Frame} {subroutines : List (List Frame)} {saved : List (String × Option Value)}
  {callers : List Activation} {line : Line}

/-- What the machine does with the value of a header is to go on with other frames, as `Evaluates`
asks. -/
theorem Evaluates.of_settle {α : Type} {r : Except Interrupt α × List Value × Store σ}
    {k : Machine σ → α → Machine σ}
    (front : m.activations = ⟨u, ⟨kind, replay⟩ :: below, subroutines, saved⟩ :: callers)
    (ticks : m.tick env = m.settle env kind below line r k)
    (h : ∀ a, ∃ frames, ∀ m, k m a = m.withFrames frames) :
    Evaluates env m u kind replay line r := by
  obtain ⟨frames, hframes⟩ := Classical.skolem.mp h
  have hk : k = fun m a => m.withFrames (frames a) := by
    funext m a
    exact hframes a m
  rw [hk] at ticks
  exact ⟨below, subroutines, saved, callers, frames, front, ticks⟩

theorem evaluates_condition {branches : List Branch} {otherwise : Option Block}
    (calm : m.pending = none) (heeded : m.heedCancel env = some m)
    (front : m.activations =
      ⟨u, ⟨.condition place .test, replay⟩ :: below, subroutines, saved⟩ :: callers)
    (hstmt : env.program.stmt? u place = some (.condition branches otherwise line)) :
    Evaluates env m u (.condition place .test) replay (m.evalBranches env replay line branches).1.1
      ((m.evalBranches env replay line branches).1.2,
        (m.evalBranches env replay line branches).2) := by
  have ticks : m.tick env = m.runCondition env u place .test replay below := by
    simp only [tick, heeded, calm, front]
  simp only [runCondition, hstmt] at ticks
  refine .of_settle front ticks ?_
  intro chosen
  rcases chosen with _ | i
  · cases otherwise <;> exact ⟨_, fun _ => rfl⟩
  · exact ⟨_, fun _ => rfl⟩

theorem evaluates_loop {loop : LoopPhase → FrameKind} {test : Expr} {body : Block}
    (front : m.activations =
      ⟨u, ⟨loop .test, replay⟩ :: below, subroutines, saved⟩ :: callers)
    (ticks : m.tick env = m.runLoop env u place loop .test replay below)
    (hstmt : env.program.stmt? u place = some (.cycle test body line) ∨
      env.program.stmt? u place = some (.doCycle body test line)) :
    Evaluates env m u (loop .test) replay (headerLine test line) (m.evalTest env replay test) := by
  rcases hstmt with hstmt | hstmt <;> simp only [runLoop, hstmt] at ticks
  all_goals
    refine .of_settle front ticks ?_
    intro again
    cases again <;> exact ⟨_, fun _ => rfl⟩

theorem evaluates_attempts {attempts : Expr} {body : Block} {test : Option Expr}
    {attempt max : UInt32} (calm : m.pending = none) (heeded : m.heedCancel env = some m)
    (front : m.activations =
      ⟨u, ⟨.retry place .enter attempt max, replay⟩ :: below, subroutines,
        saved⟩ :: callers)
    (hstmt : env.program.stmt? u place = some (.retry attempts body test line)) :
    Evaluates env m u (.retry place .enter attempt max) replay (headerLine attempts line)
      (m.evalAttempts env replay attempts) := by
  have ticks : m.tick env = m.runRetry env u place .enter attempt max replay below := by
    simp only [tick, heeded, calm, front]
  simp only [runRetry, hstmt] at ticks
  exact .of_settle front ticks fun n => ⟨_, fun _ => rfl⟩

theorem evaluates_again {attempts test : Expr} {body : Block} {attempt max : UInt32}
    (calm : m.pending = none) (heeded : m.heedCancel env = some m)
    (front : m.activations =
      ⟨u, ⟨.retry place .test attempt max, replay⟩ :: below, subroutines, saved⟩ :: callers)
    (hstmt : env.program.stmt? u place = some (.retry attempts body (some test) line)) :
    Evaluates env m u (.retry place .test attempt max) replay (headerLine test line)
      (m.evalTest env replay test) := by
  have ticks : m.tick env = m.runRetry env u place .test attempt max replay below := by
    simp only [tick, heeded, calm, front]
  simp only [runRetry, hstmt] at ticks
  refine .of_settle front ticks ?_
  intro again
  by_cases hagain : (again && decide (attempt < max)) = true
  · exact ⟨_, fun _ => if_pos hagain⟩
  · exact ⟨_, fun _ => if_neg hagain⟩

/-- The statement of the frame in front is where the frame says, and of its kind, if the machine is
placed. -/
theorem runs_of_front (placed : AllPlaced env.program m.activations)
    (front : m.activations = ⟨u, ⟨kind, replay⟩ :: below, subroutines, saved⟩ :: callers)
    (hplace : kind.place? = some place) :
    ∃ stmt, env.program.stmt? u place = some stmt ∧ kind.Runs stmt := by
  rw [front] at placed
  obtain ⟨⟨root, hact⟩, -⟩ := AllPlaced.cons_iff.mp placed
  exact hact.frames.runs hact.unit hplace

theorem raise_nextLine? (m : Machine σ) (line : Line) (fault : Fault) :
    (m.raise line fault).nextLine? env = m.nextLine? env :=
  BigStep.nextLine?_mapFrame m fun _ => rfl

/-- An interrupt that raises a fault leaves the machine where it is. One that calls a function puts
the function in front, but then no fault is pending. -/
theorem interrupt_nextLine? {i : Interrupt} (calm : m.pending = none)
    (raised : (m.interrupt env line i).pending.isSome = true) :
    (m.interrupt env line i).nextLine? env = m.nextLine? env := by
  cases i with
  | fault f => exact raise_nextLine? m line f
  | call name args =>
    simp only [interrupt] at raised ⊢
    unfold callFunction at raised ⊢
    split
    · exact raise_nextLine? m line _
    rename_i d hd
    simp only [hd] at raised
    split
    · exact raise_nextLine? m line _
    rename_i hdepth
    split
    · exact raise_nextLine? m line _
    rename_i hargs
    rw [if_neg hdepth, if_neg hargs] at raised
    split
    · rename_i f scope hbind
      exact raise_nextLine? (m.withScope scope) line f
    · -- the function is called, and nothing raised
      rename_i shadowed scope hbind
      rw [hbind] at raised
      simp [withScope, calm] at raised

theorem Evaluates.nextLine? {α : Type} {r : Except Interrupt α × List Value × Store σ}
    (h : Evaluates env m u kind replay line r) (calm : m.pending = none) :
    (m.tick env).1 = .running ∧
      ((m.tick env).2.pending.isSome = true →
        (m.tick env).2.nextLine? env = m.nextLine? env) := by
  obtain ⟨below, subroutines, saved, callers, frames, front, ticks⟩ := h
  obtain ⟨result, replay', store⟩ := r
  rw [ticks]
  cases result with
  | ok a =>
    refine ⟨rfl, ?_⟩
    simp [settle, pending_withFrames, calm]
  | error i =>
    refine ⟨rfl, ?_⟩
    intro raised
    have hcalm : ({ m with store }.withFrames (⟨kind, replay'⟩ :: below)).pending = none := by
      simp [pending_withFrames, calm]
    have hsame : ({ m with store }.withFrames (⟨kind, replay'⟩ :: below)).nextLine? env =
        m.nextLine? env := by
      simp only [Machine.nextLine?, withFrames, mapTop, front]
    exact (interrupt_nextLine? hcalm raised).trans hsame

end

theorem AtHeader.nextLine? {line : Line} (h : AtHeader env m line) (calm : m.pending = none) :
    (m.tick env).1 = .running ∧
      ((m.tick env).2.pending.isSome = true →
        (m.tick env).2.nextLine? env = m.nextLine? env) := by
  cases h with
  | condition _ evaluates => exact evaluates.nextLine? calm
  | cycle _ evaluates => exact evaluates.nextLine? calm
  | doCycle _ evaluates => exact evaluates.nextLine? calm
  | attempts _ evaluates => exact evaluates.nextLine? calm
  | again _ evaluates => exact evaluates.nextLine? calm

/-! ## Going up to what is about to run -/

/-- Moving frames raises no fault. Faults come from evaluations and from statements, and here is
neither ahead. -/
theorem tick_frames_calm (ahead : m.ahead? env = some .frames) (calm : m.pending = none)
    (heeded : m.heedCancel env = some m) : (m.tick env).2.pending = none := by
  unfold ahead? at ahead
  rcases hm : m.activations with _ | ⟨⟨u, frames, subroutines, saved⟩, callers⟩ <;>
    rw [hm] at ahead
  · simp [tick, heeded, calm, hm]
  rcases frames with _ | ⟨⟨kind, replay⟩, below⟩
  · cases u <;> simp [tick, heeded, calm, hm, pending_returnFromFunction]
  -- where the statement of a frame is looked up, a header is ahead
  have header : ∀ place : StmtPath,
      (env.program.stmt? u place).map (fun s => Ahead.header s.line) ≠ some .frames := by
    intro place hplace
    obtain ⟨stmt, -, hstmt⟩ := Option.map_eq_some_iff.mp hplace
    cases hstmt
  cases kind with
  | block path next =>
    obtain ⟨block, hblock, hb⟩ := Option.map_eq_some_iff.mp ahead
    simp only [tick, heeded, calm, hm, runBlock, hblock]
    rcases hstmt : block.body[next]? with _ | stmt
    · simp [pending_withFrames, calm]
    · simp only [hstmt] at hb
      split at hb
      · rename_i hs
        simp [hs, pending_withFrames, calm]
      · cases hb
  | condition place phase =>
    cases phase with
    | test => exact absurd ahead (header place)
    | branch =>
      simp only [tick, heeded, calm, hm, runCondition]
      split <;> simp [pending_withFrames, calm]
  | cycle place phase =>
    cases phase with
    | test => exact absurd ahead (header place)
    | body => simp [tick, heeded, calm, hm, runLoop, pending_withFrames]
  | doCycle place phase =>
    cases phase with
    | test => exact absurd ahead (header place)
    | body => simp [tick, heeded, calm, hm, runLoop, pending_withFrames]
  | retry place phase attempt max =>
    cases phase with
    | enter => exact absurd ahead (header place)
    | test => exact absurd ahead (header place)
    | body =>
      simp only [tick, heeded, calm, hm, runRetry]
      split
      · split <;> simp [pending_withFrames, calm]
      · exact calm
  | tryCatch place phase => simp [tick, heeded, calm, hm, pending_withFrames]

/-- A header that is ahead is what the next micro-step evaluates. What is ahead is read off the
frame in front without its statement; that the statement is there and of the kind of the frame is
`placed`, and that a retry that tests has a test is `tested`. -/
theorem atHeader_of_ahead (placed : AllPlaced env.program m.activations)
    (tested : ∀ act ∈ m.activations, act.Tested env.program) (calm : m.pending = none)
    (heeded : m.heedCancel env = some m) {line : Line}
    (ahead : m.ahead? env = some (.header line)) :
    AtHeader env m line := by
  have hnext := nextLine?_of_header ahead
  unfold ahead? at ahead
  unfold nextLine? at hnext
  rcases hm : m.activations with _ | ⟨⟨u, frames, subroutines, saved⟩, callers⟩ <;>
    rw [hm] at ahead hnext
  · cases ahead
  rcases frames with _ | ⟨⟨kind, replay⟩, below⟩
  · cases ahead
  cases kind with
  -- in front of a block is a statement, or frames to move: a structured statement, or its end
  | block path next =>
    obtain ⟨b, -, hb⟩ := Option.map_eq_some_iff.mp ahead
    split at hb
    · split at hb <;> cases hb
    · cases hb
  -- a try has no header, and its frame is only left
  | tryCatch place phase => cases ahead
  -- a branch that is done is left, so the frame is at its tests; its statement is a condition, and
  -- `hnext` says that the line is that of the statement
  | condition place phase =>
    cases phase with
    | branch => cases ahead
    | test =>
      obtain ⟨stmt, hstmt, runs⟩ := runs_of_front placed hm rfl
      simp only [hstmt] at hnext
      cases runs
      cases hnext
      exact .condition hstmt (evaluates_condition calm heeded hm hstmt)
  -- behind its body a cycle goes to its test without evaluating anything
  | cycle place phase =>
    cases phase with
    | body => cases ahead
    | test =>
      obtain ⟨stmt, hstmt, runs⟩ := runs_of_front placed hm rfl
      simp only [hstmt] at hnext
      cases runs
      cases hnext
      have ticks : m.tick env = m.runLoop env u place (.cycle place) .test replay below := by
        simp only [tick, heeded, calm, hm]
      exact .cycle hstmt (evaluates_loop hm ticks (.inl hstmt))
  | doCycle place phase =>
    cases phase with
    | body => cases ahead
    | test =>
      obtain ⟨stmt, hstmt, runs⟩ := runs_of_front placed hm rfl
      simp only [hstmt] at hnext
      cases runs
      cases hnext
      have ticks : m.tick env = m.runLoop env u place (.doCycle place) .test replay below := by
        simp only [tick, heeded, calm, hm]
      exact .doCycle hstmt (evaluates_loop hm ticks (.inr hstmt))
  -- a retry evaluates twice: the number of attempts when it is entered, and its test behind the
  -- body
  | retry place phase attempt max =>
    cases phase with
    | body => cases ahead
    | enter =>
      obtain ⟨stmt, hstmt, runs⟩ := runs_of_front placed hm rfl
      simp only [hstmt] at hnext
      cases runs
      cases hnext
      exact .attempts hstmt (evaluates_attempts calm heeded hm hstmt)
    | test =>
      -- the kind of the frame does not say that the retry has a test, and without one nothing would
      -- run here
      rw [hm] at tested
      obtain ⟨⟨hframes, -⟩, -⟩ := List.forall_mem_cons.mp tested
      obtain ⟨place, attempts, body, test, line', hplace, hstmt⟩ :=
        hframes _ List.mem_cons_self rfl
      cases hplace
      simp only [hstmt] at hnext
      cases hnext
      exact .again hstmt (evaluates_again calm heeded hm hstmt)

/-- A statement that is ahead is what the next micro-step runs. It cannot be one that is not
executed, as this would be a defect. -/
theorem atStatement_of_ahead (linked : env.program.Linked)
    (placed : AllPlaced env.program m.activations) (calm : m.pending = none)
    (heeded : m.heedCancel env = some m) {line : Line} (ahead : m.ahead? env = some .statement)
    (next : m.nextLine? env = some line) :
    AtStatement env m line := by
  obtain ⟨u, path, index, replay, below, subroutines, saved, callers, block, stmt, hm, hblock,
    hstmt, hs⟩ :=
    stmt_of_statement ahead
  have hline : stmt.line = line := by
    simpa [nextLine?, hm, hblock, Block.lineAt, hstmt] using next
  have ticks : m.tick env = m.runBlock env u path index replay below := by
    simp only [tick, heeded, calm, hm]
  simp only [runBlock, hblock, hstmt, hs, Bool.false_eq_true, if_false] at ticks
  rcases hexec : stmt.execute env m.store replay with _ | r
  · -- a statement that cannot run would be a defect
    rw [hexec] at ticks
    exact absurd (congrArg Prod.fst ticks) (tick_ne_defect linked placed)
  · have hat : env.program.stmt? u ⟨path, index⟩ = some stmt := by
      rw [Program.stmt?_of_block? hblock, hstmt]
    refine .intro hm hat hs hline hexec ?_ ?_
    · intro effect heffect
      simp only [hexec, heffect] at ticks
      rw [ticks, hline]
    · intro i hi
      simp only [hexec, hi] at ticks
      rw [ticks, hline]

theorem heedCancel_of_not_cancelled (h : m.cancelled = false) : m.heedCancel env = some m := by
  simp [heedCancel, h]

theorem advance_of_pending {stop : Line → Bool} (h : m.pending.isSome = true) (fuel : Nat) :
    m.advance env stop fuel = (.stopped, m) := by
  unfold advance
  simp [h]

theorem advance_of_named {stop : Line → Bool} {line : Line}
    (ahead : m.ahead? env = some (.header line)) (named : stop line = true) (fuel : Nat) :
    m.advance env stop (fuel + 1) = (.stopped, m) := by
  unfold advance
  simp [ahead, named]

/-- **A fault that stops an advance was raised by a header on a line that is passed.** The induction
is on the fuel: moving frames stays calm, and of a header that is passed either the advance goes on
behind it, or it fails and stays in front. -/
theorem advance_calm {stop : Line → Bool} {fuel : Nat}
    (reached : Reachable env m) (calm : m.pending = none)
    (h : m.advance env stop fuel = (.stopped, m')) :
    m'.pending = none ∨ ∃ line, m'.nextLine? env = some line ∧ stop line = false := by
  induction fuel generalizing m with
  | zero =>
    unfold advance at h
    split at h <;> cases h
    exact .inl calm
  | succ fuel ih =>
    obtain ⟨hstopped, -⟩ | ⟨hdefect, -⟩ | ⟨hbehind, goes⟩ :=
      advance_cases env stop fuel m
    · rw [hstopped] at h
      cases h
      exact .inl calm
    · rw [hdefect] at h
      cases h
    have heeded : m.heedCancel env = some m := heedCancel_of_not_cancelled goes.heeded
    have reached' := reached.tick
    rcases goes.ahead with ahead | ⟨line, ahead⟩
    · -- frames are moved, and the machine stays calm
      have hcalm := tick_frames_calm ahead calm heeded
      rw [hbehind] at h
      have hquiet := goes.tick_quiet
      rcases htick : m.tick env with ⟨t, m₁⟩
      rw [htick] at h hquiet hcalm reached'
      rcases hquiet with rfl | rfl | rfl
      · exact ih reached' hcalm h
      · cases h
        exact .inl hcalm
      · cases h
    by_cases named : stop line = true
    · rw [advance_of_named ahead named] at h
      cases h
      exact .inl calm
    -- a header that is passed is evaluated, and if it fails it stays in front
    have header := atHeader_of_ahead reached.placed reached.tested calm heeded ahead
    obtain ⟨hrunning, hnext⟩ := header.nextLine? calm
    rw [nextLine?_of_header ahead] at hnext
    rw [hbehind] at h
    rcases htick : m.tick env with ⟨t, m₁⟩
    rw [htick] at h hrunning hnext reached'
    obtain rfl : t = .running := hrunning
    rcases hpending : m₁.pending with _ | failure
    · exact ih reached' hpending h
    · have hraised : m₁.pending.isSome = true := by rw [hpending]; rfl
      have hstopped : m₁.advance env stop fuel = (.stopped, m') := h
      rw [advance_of_pending hraised] at hstopped
      cases hstopped
      exact .inr ⟨line, hnext hraised, by simpa using named⟩

/-! ## Behind a record -/

theorem recorded_record {line : Line} {value : Option Value} {r : StepRecord}
    (h : m.recorded env line value = (.record r, m')) :
    m' = m ∧ m'.nextLine? env = some r.nextLine := by
  unfold recorded at h
  split at h
  · rename_i nextLine hnext
    cases h
    exact ⟨rfl, hnext⟩
  · cases h

/-- What shows a record keeps the fault that is pending, if any, and the record has the next
line. -/
theorem apply_record {line : Line} {effect : Effect} {r : StepRecord}
    (h : m.apply env line effect = (.record r, m')) :
    m'.pending = m.pending ∧ m'.nextLine? env = some r.nextLine := by
  cases effect with
  | value v =>
    obtain ⟨rfl, hnext⟩ := recorded_record h
    exact ⟨rfl, hnext⟩
  | delay ns v =>
    obtain ⟨rfl, hnext⟩ := recorded_record h
    exact ⟨rfl, hnext⟩
  | suspend =>
    obtain ⟨rfl, hnext⟩ := recorded_record h
    exact ⟨rfl, hnext⟩
  | exit status =>
    obtain ⟨rfl, hnext⟩ := recorded_record (m := m.terminate status) h
    exact ⟨rfl, hnext⟩
  | ret v =>
    obtain ⟨rfl, hnext⟩ := recorded_record h
    exact ⟨pending_ret m v, hnext⟩
  | jump label =>
    -- a jump shows a record only where it has found its label
    rcases hjump : m.jump env label with _ | fault | m₁ <;> simp only [apply, hjump] at h
    · cases h
    · cases h
    · obtain ⟨rfl, hnext⟩ := recorded_record h
      exact ⟨pending_jump hjump, hnext⟩
  | sub label =>
    rcases hgosub : m.gosub env label with _ | fault | m₁ <;> simp only [apply, hgosub] at h
    · cases h
    · cases h
    · obtain ⟨rfl, hnext⟩ := recorded_record h
      exact ⟨pending_gosub hgosub, hnext⟩

/-- Behind a record no fault is pending, and the run goes on where the record says. -/
theorem tick_record {r : StepRecord} (h : m.tick env = (.record r, m')) :
    m'.pending = none ∧ m'.nextLine? env = some r.nextLine := by
  have ticked := tick_ticked env m
  rw [h] at ticked
  generalize hresult : (Tick.record r, m') = result at ticked
  cases ticked with
  | astray | cancelled | idle | ended | back | moved | stopped => cases hresult
  | unwind pending => exact absurd (congrArg Prod.fst hresult).symm (unwind_ne_record env m _ r)
  | ran going =>
    obtain ⟨hpending, hnext⟩ := apply_record hresult.symm
    exact ⟨hpending.trans ((pending_withFrames _ _).trans going), hnext⟩

/-- The same for a step, and a run that is not over has a unit to go on with. -/
theorem step_record {fuel : Nat} {r : StepRecord} (h : m.step env fuel = (.record r, m')) :
    m'.pending = none ∧ m'.nextLine? env = some r.nextLine ∧
      (m'.finished = false → m'.activations ≠ []) := by
  have hsteps := StepsTo.of_step h (.record r)
  obtain ⟨m₀, m₂, -, htick, rfl⟩ := hsteps.of_record
  obtain ⟨hpending, hnext⟩ := tick_record htick
  refine ⟨hpending, hnext, ?_⟩
  intro hgoing hnothing
  simp [settled, show m₂.activations = [] from hnothing] at hgoing

end Machine

namespace Session

open Machine

variable {σ : Type} {env : Setting σ} {s s' : Session σ}

/-! ## Calls are made of micro-steps -/

theorem hand_machine_cases (s : Session σ) :
    s.hand.machine = s.machine ∨ s.hand.machine = s.machine.cancel := by
  unfold hand
  dsimp only
  split
  · exact .inr rfl
  · exact .inl rfl

theorem pass_machine_cases (s : Session σ) :
    s.pass.machine = s.machine.takeDelay.2 ∨ s.pass.machine = s.machine.takeDelay.2.cancel := by
  unfold pass
  rcases s.machine.takeDelay with ⟨delay, m⟩
  cases delay with
  | none =>
    simp only [yield]
    split
    · exact .inr rfl
    · exact .inl rfl
  | some ns =>
    simp only [wait]
    split
    · exact .inl rfl
    split
    · split
      · exact .inr rfl
      · exact .inl rfl
    · exact .inl rfl

/-- Handing over a record and waiting takes the delay of the machine and may cancel it, and does
nothing else. -/
theorem hand_pass_machine (s : Session σ) :
    s.hand.pass.machine = s.machine.takeDelay.2 ∨
      s.hand.pass.machine = s.machine.takeDelay.2.cancel := by
  rcases hand_machine_cases s with hhand | hhand <;>
    rcases pass_machine_cases s.hand with hpass | hpass <;>
    rw [hhand] at hpass
  · exact .inl hpass
  · exact .inr hpass
  · exact .inr hpass
  · exact .inr hpass

theorem hand_pass_acts (env : Setting σ) (s : Session σ) :
    ReflTransGen (Acts env) s.machine s.hand.pass.machine := by
  have htaken : ReflTransGen (Acts env) s.machine s.machine.takeDelay.2 :=
    .single (.handled .takeDelay)
  rcases hand_pass_machine s with h | h <;> rw [h]
  · exact htaken
  · exact htaken.tail (.handled .cancel)

/-- A call runs its machine by steps, waits, and advances it. All of this is what the owner of a
machine may do. -/
theorem Advanced.acts {fuel : Nat} {r : Option StepRecord × Option Outcome × Session σ}
    (h : Advanced env fuel s r) : ReflTransGen (Acts env) s.machine r.2.2.machine := by
  have hstep := step_acts env fuel s.machine
  cases h with
  | ended steps | failed steps | defect steps | outOfFuel steps =>
    rw [steps] at hstep
    exact hstep
  | @record _ m _ _ steps looked =>
    rw [steps] at hstep
    rw [looked.machine.1]
    have hpassed := hstep.trans (hand_pass_acts env { s with machine := m })
    exact hpassed.trans (advance_acts env _ fuel _)

/-! ## Pauses -/

namespace Watches

variable {breakpoints : List Line} {fuel limit : Nat} {line : Line}

/-- A look that pauses has advanced the machine, and stopped at a breakpoint. That it did not stop
for a fault is where `advance_calm` comes in. -/
theorem looked_paused (h : Watches breakpoints s) (linked : env.program.Linked)
    (reached : Reachable env s.machine) (calm : s.machine.pending = none)
    (looked : Looked env fuel s (some (.paused line), s')) :
    line ∈ breakpoints ∧ Faces env s'.machine line := by
  have hwatches := h.looked looked
  have reached' := reached.acts (looked.machine.1 ▸ advance_acts env s.stops fuel s.machine)
  cases looked with
  | @paused m _ stopped going next awake named =>
    have heeded : m.heedCancel env = some m := heedCancel_of_not_cancelled hwatches.heeded
    have hmem : line ∈ s.breakpoints := by simpa using named
    have hcalm : m.pending = none := by
      obtain hcalm | ⟨line', hnext, hclear⟩ := advance_calm reached calm stopped
      · exact hcalm
      · -- the header that failed would be on the line that was looked at, and that is a breakpoint
        rw [next] at hnext
        cases hnext
        simp [stops, hmem] at hclear
    refine ⟨h.breakpoints ▸ hmem, hcalm, ?_⟩
    have placed := reached'.placed
    -- of the five reasons to stay three are excluded: the run goes on, no fault is pending, and
    -- nobody cancels
    cases advance_stays stopped with
    | finished hfinished => simp [going] at hfinished
    | fault hfault => simp [hcalm] at hfault
    | cancelled hcancelled => simp [show m.cancelled = false from hwatches.heeded] at hcancelled
    | statement ahead => exact .inl (atStatement_of_ahead linked placed hcalm heeded ahead next)
    | header ahead _ =>
      rw [nextLine?_of_header ahead] at next
      cases next
      exact .inr (atHeader_of_ahead placed reached'.tested hcalm heeded ahead)

/-- Behind the record of a statement no fault is pending, so the look that follows pauses only in
front of something. -/
theorem advanced_paused {r : Option StepRecord} (h : Watches breakpoints s)
    (linked : env.program.Linked) (reached : Reachable env s.machine)
    (advanced : Advanced env fuel s (r, some (.paused line), s')) :
    line ∈ breakpoints ∧ Faces env s'.machine line := by
  generalize houtcome : some (Outcome.paused line) = outcome at advanced
  cases advanced with
  | ended => cases houtcome
  | failed =>
    split at houtcome <;> cases houtcome
  | defect => cases houtcome
  | outOfFuel => cases houtcome
  | @record r m _ _ steps looked =>
    subst houtcome
    have heeded := step_cancelled env fuel s.machine
    have hsteps := reached.acts (step_acts env fuel s.machine)
    rw [steps] at heeded hsteps
    have hwatches := (h.withMachine heeded).hand.pass
    have hreached := hsteps.acts (hand_pass_acts env { s with machine := m })
    have hcalm : ({ s with machine := m } : Session σ).hand.pass.machine.pending = none := by
      rcases hand_pass_machine { s with machine := m } with hm | hm <;> rw [hm] <;>
        exact (step_record steps).1
    exact hwatches.looked_paused linked hreached hcalm looked

/-- What a call keeps, and what a pause at its end means. The induction is on the number of records
that the call may still show. -/
theorem loop_paused (h : Watches breakpoints s) (linked : env.program.Linked)
    (reached : Reachable env s.machine) (fuel limit : Nat) :
    Watches breakpoints (s.loop env fuel limit).2.2 ∧
      Reachable env (s.loop env fuel limit).2.2.machine ∧
      ∀ line, (s.loop env fuel limit).2.1 = .paused line →
        line ∈ breakpoints ∧ Faces env (s.loop env fuel limit).2.2.machine line := by
  induction limit generalizing s with
  | zero => exact ⟨h, reached, nofun⟩
  | succ limit ih =>
    rcases hadvance : s.advance env fuel with ⟨r, outcome, s₁⟩
    have hadvanced := advance_cases env fuel s
    rw [hadvance] at hadvanced
    have hwatches := (h.advanced hadvanced).1
    have hreached := reached.acts hadvanced.acts
    simp only [Session.loop, hadvance]
    cases outcome with
    | none => exact ih hwatches hreached
    | some o =>
      refine ⟨hwatches, hreached, ?_⟩
      rintro line rfl
      exact h.advanced_paused linked reached hadvanced

end Watches

/-- **A pause is in front of something that is about to run.** Take any script, options, host and
breakpoints, a machine that has come anywhere by any calls, and a session that nobody cancels. Where
one of its calls pauses, the line is a breakpoint, no fault is pending, and the next micro-step runs
a simple statement on this line or evaluates the header of a condition, a loop or a retry there. -/
theorem paused_in_front {script : Block} (hprogram : env.program = Program.link script)
    (reached : Reachable env s.machine)
    (never : s.cancellation = .never) (heeded : s.machine.cancelled = false) (fuel limit : Nat)
    (always : Bool) (calls : Nat) {report : Report} {t : Session σ} {line : Line}
    (call : (report, t) ∈ s.runs env fuel limit always calls)
    (paused : report.outcome = .paused line) :
    line ∈ s.breakpoints ∧ t.machine.pending = none ∧
      (AtStatement env t.machine line ∨ AtHeader env t.machine line) := by
  have linked : env.program.Linked := hprogram ▸ Program.linked_link script
  have watches : Watches s.breakpoints s := ⟨rfl, never, heeded⟩
  suffices hfaces : line ∈ s.breakpoints ∧ Faces env t.machine line from
    ⟨hfaces.1, hfaces.2.calm, hfaces.2.front⟩
  -- a call keeps breakpoints and token, and the induction is over the calls with both fixed
  generalize s.breakpoints = breakpoints at watches ⊢
  clear never heeded
  induction calls generalizing s with
  | zero => cases call
  | succ calls ih =>
    have hstart : Watches breakpoints s.start :=
      ⟨watches.breakpoints, watches.never, watches.heeded⟩
    have hreached : Reachable env s.start.machine := reached.handled .resume
    obtain ⟨hwatches, hreached, hpaused⟩ := hstart.loop_paused linked hreached fuel limit
    have hfirst : ∀ line, (s.run env fuel limit).1.outcome = .paused line →
        line ∈ breakpoints ∧ Faces env (s.run env fuel limit).2.machine line := hpaused
    simp only [runs] at call
    -- the call in question is this one, or one of those behind it
    split at call
    · obtain ⟨rfl, rfl⟩ := Prod.ext_iff.mp (List.mem_singleton.mp call)
      exact hfirst line paused
    · rcases List.mem_cons.mp call with hcall | hcall
      · obtain ⟨rfl, rfl⟩ := Prod.ext_iff.mp hcall
        exact hfirst line paused
      · exact ih hreached hcall hwatches

/-- A loop whose test fails, and a retry whose test calls a function. -/
def winding : Block :=
  .mk
    [.function "f" [] (.mk [.ret (some (.bool true 2)) 2] 1 3) 1,
      .tryCatch (.mk [.cycle (.var "missing" 5) (.mk [.noop 6] 5 7) 5] 4 8) none
        (.mk [.noop 9] 8 10) 4,
      .retry (.num 2 11) (.mk [.noop 12] 11 13) (some (.call "f" [] 11)) 11]
    0 14

/-- All closing lines are breakpoints, but all pauses are before the retry. The third one is before
its test again, behind the return of the function. -/
theorem paused_in_front_winding :
    let env : Setting Unit := ⟨Program.link winding, .default, .null ""⟩
    let s := Session.new (Machine.new .empty ()) [3, 7, 8, 10, 11, 13] .never
    ((s.runs env 40 40 false 9).map fun call => call.1.outcome.pauseLine?) =
      [some 11, some 11, some 11, some 11, some 11, none] ∧
    ∃ report t, (s.runs env 40 40 false 9)[2]? = some (report, t) ∧
      report.outcome = .paused 11 ∧
      11 ∈ s.breakpoints ∧ t.machine.pending = none ∧
      (AtStatement env t.machine 11 ∨ AtHeader env t.machine 11) := by
  intro env s
  have hpauses : ((s.runs env 40 40 false 9).map fun call => call.1.outcome.pauseLine?) =
      [some 11, some 11, some 11, some 11, some 11, none] := by
    decide +kernel
  have hthird : ((s.runs env 40 40 false 9)[2]?).map (fun call => call.1.outcome.pauseLine?) =
      some (some 11) := by
    rw [← List.getElem?_map, hpauses]
    rfl
  obtain ⟨⟨report, t⟩, hcall, hline⟩ := Option.map_eq_some_iff.mp hthird
  have hpaused := Outcome.eq_of_pauseLine? hline
  have hfaces :=
    paused_in_front (s := s) rfl (.new _ _) rfl rfl 40 40 false 9
      (List.mem_of_getElem? hcall) hpaused
  exact ⟨hpauses, report, t, hcall, hpaused, hfaces⟩

end Session

end Stepwise
