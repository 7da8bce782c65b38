import Stepwise.Proofs.Execute
import Stepwise.Proofs.Path
import Stepwise.Proofs.Simulation.Evaluation

/-!
# Structured statements

One theorem for each structured statement: with the frames that start the statement on top, the
machine does what the structured meaning of the statement says. All are relative to the meaning of
blocks. Loops and retries are by induction on the fuel, one round at a time.

Each statement needs three facts. What a micro-step in its frame does is an equation by what the
pass comes to (`condition_tick`, `LoopAt.tick_test`). From it the frame is one in which an
evaluation happens (`PassFrame`), so `Realizes.header` applies. What remains is the blocks that
start behind the header, and these are realized by hypothesis.

Try statements and retries take faults, and are in `Proofs/Simulation/Handler`.
-/

namespace Stepwise.BigStep

open Machine

variable {σ : Type} {env : Setting σ} {run : Around → Block → Meaning σ} {s : Site}
  {around : Around} {place : StmtPath} {below : List Frame}

/-- A block of a statement, with the frame of the statement under it. It starts at its first
statement, and leaves the frame in front when it is done. -/
theorem RunsBlocks.child (hrun : RunsBlocks env run) (hfits : s.Fits env around) {stmt : Stmt}
    (hstmt : env.program.stmt? s.unit place = some stmt) (sel : BlockSel) {b : Block}
    (hb : stmt.block? sel = some b) (below : List Frame) :
    Realizes env s (Frame.block (place.child sel) 0 :: below) below (run around b) :=
  hrun around s hfits _ b below (Program.block?_child hstmt hb)

/-! ## Conditions

The machine chooses a branch by its number and looks its block up in the next micro-step; the
structured meaning has the block at once. -/

theorem chosenBlock_cons (c : EvalContext σ) (line : Line) (otherwise : Option Block) (test : Expr)
    (block : Block) (rest : List Branch) (st : EvalState σ) :
    chosenBlock c line otherwise (.mk test block :: rest) st =
      match (Eval.expr c test).run st with
      | (.error i, st') => ((headerLine test line, .error i), st')
      | (.ok v, st') =>
        if v.isTruthy then ((headerLine test line, .ok (some block)), st')
        else chosenBlock c line otherwise rest st' := by
  rw [chosenBlock]
  simp only [bind, StateT.bind]
  cases (Eval.expr c test).run st with
  | mk result st' =>
    cases result with
    | error i => rfl
    | ok v =>
      dsimp only
      split <;> rfl

/-- The two ways to choose a branch agree: by its number, and by its block. The induction is on the
branches, with the number counted up along. -/
theorem chosenBlock_cases (c : EvalContext σ) (line : Line) (otherwise : Option Block) (k : Nat)
    (branches : List Branch) (st : EvalState σ) :
    ∃ testLine st',
      (∃ i, chooseBranch c line k branches st = ((testLine, .error i), st') ∧
        chosenBlock c line otherwise branches st = ((testLine, .error i), st')) ∨
      (chooseBranch c line k branches st = ((testLine, .ok none), st') ∧
        chosenBlock c line otherwise branches st = ((testLine, .ok otherwise), st')) ∨
      (∃ i branch, branches[i]? = some branch ∧
        chooseBranch c line k branches st = ((testLine, .ok (some (k + i))), st') ∧
        chosenBlock c line otherwise branches st = ((testLine, .ok (some branch.block)), st')) := by
  induction branches generalizing k st with
  | nil => exact ⟨line, st, .inr (.inl ⟨rfl, rfl⟩)⟩
  | cons branch rest ih =>
    obtain ⟨test, block⟩ := branch
    rw [chooseBranch_cons, chosenBlock_cons]
    cases (Eval.expr c test).run st with
    | mk result st' =>
      cases result with
      | error i => exact ⟨_, st', .inl ⟨i, rfl, rfl⟩⟩
      | ok v =>
        dsimp only
        split
        -- this test holds, so its branch is the first of the list
        · exact ⟨_, st', .inr (.inr ⟨0, _, rfl, rfl, rfl⟩)⟩
        -- it does not, and a branch of the rest is one further on in the whole list
        · obtain ⟨testLine, st'', h | h | ⟨i, branch, hi, h, h'⟩⟩ := ih (k + 1) st'
          · exact ⟨testLine, st'', .inl h⟩
          · exact ⟨testLine, st'', .inr (.inl h)⟩
          · refine ⟨testLine, st'', .inr (.inr ⟨i + 1, branch, hi, ?_, h'⟩)⟩
            rw [h, Nat.add_right_comm, Nat.add_assoc]

section Condition

variable {branches : List Branch} {otherwise : Option Block} {line : Line}

/-- What a micro-step in the frame of a condition does, by what the pass comes to. A pass evaluates
the tests up to the one that holds, so a branch is chosen in one micro-step, unless a test stops for
a function. -/
theorem condition_tick
    (hstmt : env.program.stmt? s.unit place = some (.condition branches otherwise line))
    (below : List Frame) (p : Progress σ) (replay : List Value) :
    ∃ testLine result replay' store,
      branchPass env branches otherwise line replay p.store =
        some (testLine, result, replay', store) ∧
      match result with
      | .error i =>
        (p.machine (s.stack (⟨.condition place .test, replay⟩ :: below))).tick env =
          (.running, ((p.withStore store).machine
            (s.stack (⟨.condition place .test, replay'⟩ :: below))).interrupt env testLine i)
      | .ok none =>
        (p.machine (s.stack (⟨.condition place .test, replay⟩ :: below))).tick env =
          (.running, (p.withStore store).machine (s.stack below))
      | .ok (some b) =>
        ∃ sel, Stmt.block? (.condition branches otherwise line) sel = some b ∧
          (p.machine (s.stack (⟨.condition place .test, replay⟩ :: below))).tick env =
            (.running, (p.withStore store).machine
              (s.stack
                (Frame.block (place.child sel) 0 :: Frame.new (.condition place .branch) ::
                  below))) := by
  have htick : (p.machine (s.stack (⟨.condition place .test, replay⟩ :: below))).tick env =
      runCondition env (p.machine (s.stack (⟨.condition place .test, replay⟩ :: below)))
        s.unit place .test replay below := rfl
  have hstore : (p.machine (s.stack (⟨.condition place .test, replay⟩ :: below))).store =
      p.store := rfl
  rw [htick]
  unfold runCondition branchPass
  rw [hstmt, hstore]
  dsimp only
  -- the machine chooses by number and the pass by block, in the same state
  obtain ⟨testLine, st,
    ⟨i, hnumber, hblock⟩ | ⟨hnumber, hblock⟩ | ⟨i, branch, hi, hnumber, hblock⟩⟩ :=
    chosenBlock_cases (env.context p.store) line otherwise 0 branches ⟨replay, 0, p.store.world⟩
  · rw [Store.run_eq hblock, Store.run_eq hnumber]
    refine ⟨_, .error i, _, _, rfl, ?_⟩
    cases i <;> rfl
  · rw [Store.run_eq hblock, Store.run_eq hnumber]
    cases otherwise with
    | none => exact ⟨_, .ok none, _, _, rfl, rfl⟩
    | some b => exact ⟨_, .ok (some b), _, _, rfl, .otherwise, rfl, rfl⟩
  · rw [Store.run_eq hblock, Store.run_eq hnumber, Nat.zero_add]
    refine ⟨_, .ok (some branch.block), _, _, rfl, .branch i, ?_, rfl⟩
    simp only [Stmt.block?, hi, Option.map_some]

theorem condition_frame
    (hstmt : env.program.stmt? s.unit place = some (.condition branches otherwise line)) :
    PassFrame env s (.condition place .test) below line
      (branchPass env branches otherwise line) where
  stops p replay testLine i replay' store hpass := by
    obtain ⟨_, _, _, _, hpass', htick⟩ := condition_tick hstmt below p replay
    rw [hpass] at hpass'
    cases hpass'
    exact htick
  line m replay hm := by
    simp only [nextLine?, hm, Site.stack, hstmt, Option.map_some, Stmt.line]
  handler _ := rfl

/-- **Conditions.** The header is evaluated, and then the block that was chosen runs on top of a
frame that is dropped behind it. If no branch was chosen and there is no other block, nothing
runs. -/
theorem condition_realized (hrun : RunsBlocks env run) (hfits : s.Fits env around)
    (hstmt : env.program.stmt? s.unit place = some (.condition branches otherwise line)) (n : Nat)
    (next : Line) :
    Realizes env s (Frame.new (.condition place .test) :: below) below
      (stmt env run n around next (.condition branches otherwise line)) := by
  refine .header hrun hfits (condition_frame hstmt) ?_
  intro chosen q last testLine replay' store hpass
  obtain ⟨_, _, _, _, hpass', htick⟩ := condition_tick hstmt below q last
  rw [hpass] at hpass'
  cases hpass'
  cases chosen with
  | none => exact ⟨below, htick, .done⟩
  | some b =>
    obtain ⟨sel, hsel, htick⟩ := htick
    refine ⟨_, htick, (hrun.child hfits hstmt sel hsel _).drop rfl fun p => ?_⟩
    show runCondition env _ s.unit place .branch [] below = _
    unfold runCondition
    rw [hstmt]
    rfl

end Condition

/-! ## Loops -/

/-- The end of a header on a machine at a position of a run. The machine behind it is at a position
again, so that the next part of the statement can be followed from there. -/
theorem settle_machine {α : Type} (p : Progress σ) (frames : List Frame) (kind : FrameKind)
    (line : Line) (r : Except Interrupt α) (replay : List Value) (store : Store σ)
    (k : Machine σ → α → Machine σ) :
    (p.machine (s.stack frames)).settle env kind below line (r, replay, store) k =
      match r with
      | .ok a =>
        (.running, k ((p.withStore store).machine (s.stack (⟨kind, replay⟩ :: below))) a)
      | .error i =>
        (.running, ((p.withStore store).machine (s.stack (⟨kind, replay⟩ :: below))).interrupt
          env line i) := by
  cases r <;> rfl

section Loop

variable {kind : LoopPhase → FrameKind} {test : Expr} {body : Block} {line : Line}

/-- A loop stands at a place, and has frames of its kind. Both kinds of loops are treated at once,
as they differ in where they start only. -/
def LoopAt (env : Setting σ) (s : Site) (place : StmtPath) (kind : LoopPhase → FrameKind)
    (test : Expr) (body : Block) (line : Line) : Prop :=
  env.program.stmt? s.unit place = some (.cycle test body line) ∧ kind = .cycle place ∨
  env.program.stmt? s.unit place = some (.doCycle body test line) ∧ kind = .doCycle place

theorem LoopAt.body_realized (hloop : LoopAt env s place kind test body line)
    (hrun : RunsBlocks env run) (hfits : s.Fits env around) :
    Realizes env s (Frame.block (place.child .body) 0 :: below) below (run around body) := by
  obtain ⟨hstmt, -⟩ | ⟨hstmt, -⟩ := hloop
  · exact hrun.child hfits hstmt .body rfl below
  · exact hrun.child hfits hstmt .body rfl below

theorem LoopAt.tick_body (hloop : LoopAt env s place kind test body line) (p : Progress σ)
    (replay : List Value) :
    (p.machine (s.stack (⟨kind .body, replay⟩ :: below))).tick env =
      (.running, p.machine (s.stack (⟨kind .test, replay⟩ :: below))) := by
  obtain ⟨-, rfl⟩ | ⟨-, rfl⟩ := hloop <;> rfl

/-- A pass over the test is one micro-step, and behind the last one the body starts or the loop is
left. -/
theorem LoopAt.tick_test (hloop : LoopAt env s place kind test body line) (below : List Frame)
    {p : Progress σ} {replay : List Value} {testLine : Line} {r : Except Interrupt Bool}
    {replay' : List Value} {store : Store σ}
    (hpass : testPass env test line replay p.store = some (testLine, r, replay', store)) :
    (p.machine (s.stack (⟨kind .test, replay⟩ :: below))).tick env =
      match r with
      | .ok again =>
        (.running, (p.withStore store).machine (s.stack
          (if again then Frame.block (place.child .body) 0 :: Frame.new (kind .body) :: below
            else below)))
      | .error i =>
        (.running, ((p.withStore store).machine
          (s.stack (⟨kind .test, replay'⟩ :: below))).interrupt env testLine i) := by
  simp only [testPass, Option.some.injEq, Prod.mk.injEq] at hpass
  obtain ⟨rfl, heval⟩ := hpass
  have heval : evalTest env (p.machine (s.stack (⟨kind .test, replay⟩ :: below))) replay test =
      (r, replay', store) := heval
  obtain ⟨hstmt, rfl⟩ | ⟨hstmt, rfl⟩ := hloop
  all_goals
    show runLoop env _ s.unit place _ .test replay below = _
    unfold runLoop
    rw [hstmt]
    dsimp only
    rw [heval, settle_machine]
    cases r with
    | error i => rfl
    | ok again => cases again <;> rfl

theorem LoopAt.frame (hloop : LoopAt env s place kind test body line) :
    PassFrame env s (kind .test) below line (testPass env test line) where
  stops p replay testLine i replay' store hpass := hloop.tick_test below hpass
  line m replay hm := by
    obtain ⟨hstmt, rfl⟩ | ⟨hstmt, rfl⟩ := hloop
    all_goals simp only [nextLine?, hm, Site.stack, hstmt, Option.map_some, Stmt.line]
  handler replay := by
    obtain ⟨-, rfl⟩ | ⟨-, rfl⟩ := hloop <;> rfl

/-- A loop from its test on, by induction on the rounds that are left. A round is the test and,
where it holds, the body; behind the body the frame turns to the test again. -/
theorem LoopAt.loop_realized (hloop : LoopAt env s place kind test body line)
    (hrun : RunsBlocks env run) (hfits : s.Fits env around) (n k : Nat) :
    Realizes env s (⟨kind .test, []⟩ :: below) below
      (loop (evaluate (call env run around.depth line) (testPass env test line) n [])
        (run around body) k) := by
  induction k with
  | zero => intro p o p' h; cases h
  | succ k ih =>
    refine .header hrun hfits hloop.frame ?_
    intro again q last testLine replay' store hpass
    have htick := hloop.tick_test below hpass
    cases again with
    | false => exact ⟨below, htick, .done⟩
    | true =>
      refine ⟨_, htick, ?_⟩
      have hround : Realizes env s (⟨kind .body, []⟩ :: below) below
          (loop (evaluate (call env run around.depth line) (testPass env test line) n [])
            (run around body) k) :=
        .of_tick (fun p => hloop.tick_body p []) ih
      refine (hloop.body_realized hrun hfits).andThen ?_ hround
      obtain ⟨-, rfl⟩ | ⟨-, rfl⟩ := hloop <;> rfl

/-- **Loops that test in front of the body.** The frame they start with is at its test already. -/
theorem cycle_realized (hrun : RunsBlocks env run) (hfits : s.Fits env around)
    (hstmt : env.program.stmt? s.unit place = some (.cycle test body line)) (n : Nat)
    (next : Line) :
    Realizes env s (Frame.new (.cycle place .test) :: below) below
      (stmt env run n around next (.cycle test body line)) :=
  LoopAt.loop_realized (.inl ⟨hstmt, rfl⟩) hrun hfits n n

/-- **Loops that test behind the body.** They start with the body, so one body comes in front of the
loop from the test on. -/
theorem doCycle_realized (hrun : RunsBlocks env run) (hfits : s.Fits env around)
    (hstmt : env.program.stmt? s.unit place = some (.doCycle body test line)) (n : Nat)
    (next : Line) :
    Realizes env s (Frame.block (place.child .body) 0 :: Frame.new (.doCycle place .body) :: below)
      below (stmt env run n around next (.doCycle body test line)) := by
  have hloop : LoopAt env s place (.doCycle place) test body line := .inr ⟨hstmt, rfl⟩
  refine (hloop.body_realized hrun hfits).andThen rfl ?_
  exact .of_tick (fun p => hloop.tick_body p []) (hloop.loop_realized hrun hfits n n)

end Loop

end Stepwise.BigStep
