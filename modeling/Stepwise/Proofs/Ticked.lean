import Stepwise.Proofs.Moves
import Stepwise.Proofs.Replay

/-!
# What a micro-step does to a machine

`Ticked` lists the cases of a micro-step for the whole machine: which statement ran and what it
asked for, which evaluation stopped and why, with which scope, and where the machine went astray.
`tick_ticked` says that there are no others. The list leaves `apply`, `interrupt`,
`returnFromFunction` and `unwind` closed, since each of them has its own lemmas.

## Why there are several lists

What is kept along a run can often be said of the activations alone, or of the scope alone, and then
`Moves` and `ScopeMove` are enough and shorter; both follow from this list (`tick_moved`, and
`Touches.tick` in `Proofs/ScopeMoves`). Some things cannot be said so: what a call does to the scope
(`Proofs/Parameters`), that a record is shown only by a statement that is done
(`Proofs/Subroutines`), what becomes of a count of attempts (`Proofs/RetrySteps`), or how a run ends
(`Proofs/Ending`). These need the outcome of the micro-step, and what stood in front of the machine
before, in the same case. What is evaluated on the way is in none of the lists, so the modules about
results on replay lists go through `tick` themselves (`Proofs/ReplayLists`, `Proofs/OrderedRuns`).

The cases carry equations for the machine behind the micro-step and not for its parts. A proof about
some part rewrites with the lemma that the operation has for this part, and does not open `tick`.

## Layout

First what a simple statement can ask for, then the list itself. The sections after that go through
`tick` from the leaves to the root: headers, statements, and the choice by the frame in front. The
last two are consequences that several modules use: where a fault comes from, and where a record
comes from.
-/

namespace Stepwise

variable {σ : Type} {env : Setting σ}

/-- What the evaluation of a header can stop for: one of its expressions stops, or a number of
attempts is none. The scope is the one in which the header was reached, since headers write
nothing. -/
inductive Interrupt.OfHeader (c : EvalContext σ) : Interrupt → Prop where
  | expr {e : Expr} {st st' : EvalState σ} {i : Interrupt}
      (stops : (Eval.expr c e).run st = (.error i, st')) :
      OfHeader c i
  | attempts {v : Value} {f : Fault} (refused : Machine.attemptsOf v = .error f) :
      OfHeader c (.fault f)

/-! ## What statements ask for

A simple statement hands an effect to the machine. Which effects are possible is decided by the kind
of the statement, although the type of `execute` does not say so. -/

namespace Stmt

/-- Whether a statement says where the run goes on. All others go on behind themselves. -/
def isTransfer : Stmt → Bool
  | .goto .. | .gosub .. | .ret .. | .exit .. => true
  | _ => false

/-- What a simple statement that is done may ask for. There is one case for each statement that asks
for something of its own, and one for all those that only have a value. -/
inductive Yields : Stmt → Effect → Prop where
  | jump (label : String) (line : Line) : Yields (.goto label line) (.jump label)
  | sub (label : String) (line : Line) : Yields (.gosub label line) (.sub label)
  | ret (value : Option Expr) (line : Line) (v : Option Value) : Yields (.ret value line) (.ret v)
  | exit (value : Option Expr) (line : Line) (v : Option Value) :
      Yields (.exit value line) (.exit v)
  | value {stmt : Stmt} (plain : stmt.isTransfer = false) (v : Option Value) :
      Yields stmt (.value v)
  | delay (duration : Expr) (line : Line) (ns : Nat) (v : Value) :
      Yields (.delay duration line) (.delay ns v)
  | suspend (line : Line) : Yields (.suspend line) .suspend

end Stmt

/-- The part of a statement that writes to the store decides what it asks for. The evaluation in
front of it decides only whether there is a result at all. -/
theorem Evaluated.ok_of_commit {α β : Type} {e : Evaluated σ α}
    {k : α → Store σ → Except Fault β × Store σ} {b : β}
    (h : (e.commit k).result = .ok b) :
    ∃ a, (k a e.store).1 = .ok b := by
  unfold commit at h
  split at h
  · cases h
  · rename_i a ha
    split at h
    · rename_i b' store hk
      cases h
      exact ⟨a, congrArg Prod.fst hk⟩
    · cases h

theorem exists_of_map_ok {ε α β : Type} {x : Except ε α} {f : α → β} {b : β}
    (h : x.map f = .ok b) : ∃ a, b = f a := by
  cases x with
  | error e => cases h
  | ok a =>
    cases h
    exact ⟨a, rfl⟩

/-- **A statement that is done asks for one of the things that it can ask for.** One case for each
statement: those that have blocks are not executed, an error and a throw have no result, and the
others say in their last step what they ask for. -/
theorem Stmt.yields_of_execute {stmt : Stmt} {store : Store σ} {replay : List Value}
    {r : Evaluated σ Effect} {effect : Effect} (hexec : stmt.execute env store replay = some r)
    (hresult : r.result = .ok effect) : stmt.Yields effect := by
  cases stmt with
  | compound | condition | cycle | doCycle | retry | tryCatch | included | comment | doc =>
    cases hexec
  | error | throw =>
    cases hexec
    obtain ⟨a, ⟨⟩⟩ := Evaluated.ok_of_commit hresult
  | label | noop | function =>
    cases hexec
    cases hresult
    exact .value rfl _
  | goto =>
    cases hexec
    cases hresult
    exact .jump _ _
  | gosub =>
    cases hexec
    cases hresult
    exact .sub _ _
  | suspend =>
    cases hexec
    cases hresult
    exact .suspend _
  | assign | const | input =>
    cases hexec
    obtain ⟨a, ha⟩ := Evaluated.ok_of_commit hresult
    obtain ⟨-, rfl⟩ := exists_of_map_ok ha
    exact .value rfl _
  | status | call =>
    cases hexec
    obtain ⟨a, ⟨⟩⟩ := Evaluated.ok_of_commit hresult
    exact .value rfl _
  | ret value =>
    cases value with
    | none =>
      cases hexec
      cases hresult
      exact .ret _ _ _
    | some e =>
      cases hexec
      obtain ⟨a, ⟨⟩⟩ := Evaluated.ok_of_commit hresult
      exact .ret _ _ _
  | exit value =>
    cases value with
    | none =>
      cases hexec
      cases hresult
      exact .exit _ _ _
    | some e =>
      cases hexec
      obtain ⟨a, ⟨⟩⟩ := Evaluated.ok_of_commit hresult
      exact .exit _ _ _
  | declareWeb name params outputs calledAs url =>
    cases url with
    | none =>
      cases hexec
      cases hresult
      exact .value rfl _
    | some e =>
      cases hexec
      obtain ⟨a, ⟨⟩⟩ := Evaluated.ok_of_commit hresult
      exact .value rfl _
  | delay =>
    cases hexec
    obtain ⟨v, hv⟩ := Evaluated.ok_of_commit hresult
    -- a value that is no number, or that no delay can have, is a fault
    split at hv
    · cases hv
    split at hv
    · cases hv
    · cases hv
      exact .delay _ _ _ _

namespace Machine

/-! ## Micro-steps

The list. Each case says what was in front of the machine and gives the machine behind the
micro-step as a term. -/

/-- An evaluation of the frame in front stopped. What is left of it is a replay list and a store. A
statement may have written to the scope before it stopped; a header leaves the scope alone. -/
inductive Stopped (env : Setting σ) (m : Machine σ) (u : CodeUnit) :
    FrameKind → List Value → List Value → Store σ → Line → Interrupt → Prop where
  | statement {path : BlockPath} {next : Nat} {stmt : Stmt} {replay : List Value}
      {r : Evaluated σ Effect} {i : Interrupt}
      (hstmt : env.program.stmt? u ⟨path, next⟩ = some stmt)
      (hexec : stmt.execute env m.store replay = some r) (hresult : r.result = .error i) :
      Stopped env m u (.block path next) replay r.replay r.store stmt.line i
  | header {kind : FrameKind} {replay replay' : List Value} {store : Store σ} {i : Interrupt}
      (same : store.scope = m.scope) (reason : i.OfHeader (env.context m.store)) (line : Line) :
      Stopped env m u kind replay replay' store line i

/-- What a micro-step comes to. The cases with `going` are those without a fault pending; where one
is pending, and the run is not cancelled, the only thing to do is to unwind. -/
inductive Ticked (env : Setting σ) (m : Machine σ) : Tick × Machine σ → Prop where
  /-- Nothing is where the machine stands, or where a table leads. -/
  | astray (stray : m.nextLine? env = none ∨ Stray env m.activations) : Ticked env m (.defect, m)
  | cancelled (line : Line) :
      Ticked env m (.failed ⟨line, .cancelled⟩,
        { m.raise line .cancelled with activations := [], pending := none })
  | unwind {failure : Failure} (pending : m.pending = some failure) :
      Ticked env m (m.unwind env failure)
  | idle (going : m.pending = none) (nothing : m.activations = []) : Ticked env m (.done, m)
  /-- The main program is at its end. -/
  | ended (going : m.pending = none) :
      Ticked env m (.done, { m with activations := [], pending := none })
  /-- A function is at its end. -/
  | back {name : String} {subroutines : List (List Frame)} {saved : List (String × Option Value)}
      {callers : List Activation} (going : m.pending = none)
      (front : m.activations = ⟨.function name, [], subroutines, saved⟩ :: callers) :
      Ticked env m (.running, m.returnFromFunction .null)
  /-- Frames were moved around, and a header may have been evaluated for that. It was not for
  nothing: the frames are of other kinds than before. -/
  | moved {store : Store σ} (going : m.pending = none) (same : store.scope = m.scope)
      (frames : List Frame) {u : CodeUnit} {before : List Frame} {subroutines : List (List Frame)}
      {saved : List (String × Option Value)} {callers : List Activation}
      (front : m.activations = ⟨u, before, subroutines, saved⟩ :: callers)
      (shifts : Frame.Shift env.program u before frames)
      (other : frames.map Frame.kind ≠ before.map Frame.kind) :
      Ticked env m (.running, { m with store }.withFrames frames)
  /-- A simple statement is done. -/
  | ran {u : CodeUnit} {path : BlockPath} {next : Nat} {replay : List Value} {below : List Frame}
      {subroutines : List (List Frame)} {saved : List (String × Option Value)}
      {callers : List Activation} {stmt : Stmt} {r : Evaluated σ Effect} {effect : Effect}
      (going : m.pending = none)
      (front : m.activations =
        ⟨u, ⟨.block path next, replay⟩ :: below, subroutines, saved⟩ :: callers)
      (hstmt : env.program.stmt? u ⟨path, next⟩ = some stmt)
      (hexec : stmt.execute env m.store replay = some r) (hresult : r.result = .ok effect) :
      Ticked env m (({ m with store := r.store }.withFrames
        (⟨.block path (next + 1), r.replay⟩ :: below)).apply env stmt.line effect)
  | stopped {u : CodeUnit} {kind : FrameKind} {replay replay' : List Value} {below : List Frame}
      {subroutines : List (List Frame)} {saved : List (String × Option Value)}
      {callers : List Activation} {store : Store σ} {line : Line} {i : Interrupt}
      (going : m.pending = none)
      (front : m.activations = ⟨u, ⟨kind, replay⟩ :: below, subroutines, saved⟩ :: callers)
      (stops : Stopped env m u kind replay replay' store line i) :
      Ticked env m (.running,
        ({ m with store }.withFrames (⟨kind, replay'⟩ :: below)).interrupt env line i)

/-! ## Headers

Conditions, loops and retries evaluate something and then choose which frames come next. In each
case the kinds of the frames change: by their number where a block starts or a statement is left,
and by the phase where a body turns to its test. `other` records this, because a micro-step that
changes nothing would not bring a run nearer to its end. -/

variable {m : Machine σ} {u : CodeUnit} {subroutines : List (List Frame)}
  {saved : List (String × Option Value)} {callers : List Activation}

theorem withFrames_withFrames (m : Machine σ) (frames frames' : List Frame) :
    (m.withFrames frames).withFrames frames' = m.withFrames frames' := by
  unfold withFrames mapTop
  rcases hacts : m.activations with _ | ⟨act, rest⟩
  · simp [hacts]
  · simp

theorem length_enter_pos {stmt : Stmt} (structured : stmt.isStructured = true) (place : StmtPath) :
    0 < (Frame.enter stmt place).length := by
  cases stmt <;> first | exact Nat.succ_pos _ | cases structured

theorem block?_of_chooseBranch {c : EvalContext σ} {line testLine : Line} {i : Nat}
    {branches : List Branch} {st st' : EvalState σ}
    (h : chooseBranch c line 0 branches st = ((testLine, .ok (some i)), st'))
    (otherwise : Option Block) :
    ∃ b, (Stmt.condition branches otherwise line).block? (.branch i) = some b := by
  obtain ⟨j, branch, rfl, hj⟩ := chooseBranch_some h
  refine ⟨branch.block, ?_⟩
  rw [Nat.zero_add, Stmt.block?, hj]
  rfl

theorem chooseBranch_error {c : EvalContext σ} {line testLine : Line} {index : Nat}
    {branches : List Branch} {st st' : EvalState σ} {i : Interrupt}
    (h : chooseBranch c line index branches st = ((testLine, .error i), st')) : i.OfHeader c := by
  induction branches generalizing index st with
  | nil => cases h
  | cons branch rest ih =>
    obtain ⟨test, block⟩ := branch
    rw [chooseBranch_cons] at h
    rcases hrun : (Eval.expr c test).run st with ⟨i' | v, st₁⟩
    · rw [hrun] at h
      cases h
      exact .expr hrun
    · rw [hrun] at h
      dsimp only at h
      split at h
      · cases h
      · exact ih h

/-- A test stops only where its expression does; that its value is made a truth value stops
nothing. -/
theorem evalTest_error {replay : List Value} {test : Expr} {i : Interrupt}
    (h : (m.evalTest env replay test).1 = .error i) : i.OfHeader (env.context m.store) := by
  rcases hrun : (Eval.expr (env.context m.store) test).run.run ⟨replay, 0, m.store.world⟩
    with ⟨i' | v, st⟩
  · rw [evalTest, Store.run_eq (run_bind_error hrun)] at h
    cases h
    exact .expr hrun
  · rw [evalTest, Store.run_eq (run_bind_ok hrun)] at h
    cases h

/-- A number of attempts stops where its expression does, or because the value is no number of
attempts. -/
theorem evalAttempts_error {replay : List Value} {attempts : Expr} {i : Interrupt}
    (h : (m.store.run env replay Interrupt.isCall fun c =>
      ExceptT.run do Eval.ofExcept (attemptsOf (← Eval.expr c attempts))).1 = .error i) :
    i.OfHeader (env.context m.store) := by
  rcases hrun : (Eval.expr (env.context m.store) attempts).run.run ⟨replay, 0, m.store.world⟩
    with ⟨i' | v, st⟩
  · rw [Store.run_eq (run_bind_error hrun)] at h
    cases h
    exact .expr hrun
  · rcases hattempts : attemptsOf v with f | n
    · have hof : (Eval.ofExcept (attemptsOf v) : Eval σ UInt32).run.run st =
          (.error (.fault f), st) := by
        rw [hattempts]
        rfl
      rw [Store.run_eq ((run_bind_ok hrun).trans hof)] at h
      cases h
      exact .attempts hattempts
    · have hof : (Eval.ofExcept (attemptsOf v) : Eval σ UInt32).run.run st = (.ok n, st) := by
        rw [hattempts]
        rfl
      rw [Store.run_eq ((run_bind_ok hrun).trans hof)] at h
      cases h

theorem kinds_ne_of_length {frames before : List Frame} (h : frames.length ≠ before.length) :
    frames.map Frame.kind ≠ before.map Frame.kind := by
  intro hkinds
  exact h (by simpa using congrArg List.length hkinds)

/-- A header that is evaluated either stops, or moves frames. What it moves them to is up to `k`,
which is applied to a machine that has kept the results of the evaluation. -/
theorem settle_ticked {α : Type} {kind : FrameKind} {replay : List Value} {below : List Frame}
    (going : m.pending = none)
    (front : m.activations = ⟨u, ⟨kind, replay⟩ :: below, subroutines, saved⟩ :: callers)
    (line : Line) {r : Except Interrupt α × List Value × Store σ}
    {k : Machine σ → α → Machine σ} (same : r.2.2.scope = m.scope)
    (reason : ∀ i, r.1 = .error i → i.OfHeader (env.context m.store))
    (hk : ∀ m a, r.1 = .ok a → ∃ frames, k m a = m.withFrames frames ∧
      Frame.Shift env.program u (⟨kind, replay⟩ :: below) frames ∧
        frames.length ≠ below.length + 1) :
    Ticked env m (m.settle env kind below line r k) := by
  obtain ⟨result, replay', store⟩ := r
  cases result with
  | error i => exact .stopped going front (.header same (reason i rfl) line)
  | ok a =>
    obtain ⟨frames, hframes, shifts, hlength⟩ :=
      hk ({ m with store }.withFrames (⟨kind, replay'⟩ :: below)) a rfl
    rw [withFrames_withFrames] at hframes
    simp only [settle, hframes]
    exact .moved going same frames front shifts (kinds_ne_of_length hlength)

theorem withFrames_ticked {frames before : List Frame} (going : m.pending = none)
    (front : m.activations = ⟨u, before, subroutines, saved⟩ :: callers)
    (shifts : Frame.Shift env.program u before frames)
    (other : frames.map Frame.kind ≠ before.map Frame.kind) :
    Ticked env m (.running, m.withFrames frames) := by
  have same : m.store.scope = m.scope := rfl
  exact .moved going same frames front shifts other

theorem leave_ticked {f : Frame} {below : List Frame} (going : m.pending = none)
    (front : m.activations = ⟨u, f :: below, subroutines, saved⟩ :: callers) :
    Ticked env m (.running, m.withFrames below) := by
  refine withFrames_ticked going front (.leave f below) (kinds_ne_of_length ?_)
  exact (Nat.succ_ne_self _).symm

theorem turn_ticked {kind kind' : FrameKind} {replay : List Value} {below : List Frame}
    (going : m.pending = none)
    (front : m.activations = ⟨u, ⟨kind, replay⟩ :: below, subroutines, saved⟩ :: callers)
    (turns : kind.Turns kind') :
    Ticked env m (.running, m.withFrames (⟨kind', replay⟩ :: below)) := by
  refine withFrames_ticked going front (.turn turns replay below) ?_
  intro hkinds
  have hkind : kind' = kind := List.head_eq_of_cons_eq hkinds
  cases turns <;> cases hkind

section

variable {place : StmtPath} {replay : List Value} {below : List Frame}

/-- The statement of a frame is looked up first. If it is of another kind, the machine goes
astray. -/
theorem other_ticked {kind : FrameKind} (hplace : kind.place? = some place)
    (front : m.activations = ⟨u, ⟨kind, replay⟩ :: below, subroutines, saved⟩ :: callers)
    (other : ∀ stmt, env.program.stmt? u place = some stmt → ¬ kind.Runs stmt) :
    Ticked env m (.defect, m) :=
  .astray (.inr (front ▸ .statement hplace other _ _ _ _ _))

theorem runCondition_ticked {phase : ConditionPhase} (going : m.pending = none)
    (front : m.activations =
      ⟨u, ⟨.condition place phase, replay⟩ :: below, subroutines, saved⟩ :: callers) :
    Ticked env m (m.runCondition env u place phase replay below) := by
  unfold runCondition
  split
  · rename_i branches otherwise line hstmt
    cases phase with
    | branch => exact leave_ticked going front
    | test =>
      dsimp only
      rcases hrun : chooseBranch (env.context m.store) line 0 branches
        ⟨replay, 0, m.store.world⟩
        with ⟨⟨testLine, result⟩, st⟩
      rw [Store.run_eq hrun]
      refine settle_ticked going front testLine rfl ?_ ?_
      · intro i hi
        obtain rfl : result = .error i := hi
        exact chooseBranch_error hrun
      · intro m chosen hchosen
        obtain rfl : result = .ok chosen := hchosen
        -- the branch that was chosen, the block that stands for none of them, or the statement is
        -- left
        cases chosen with
        | some i =>
          obtain ⟨b, hblock⟩ := block?_of_chooseBranch hrun otherwise
          refine ⟨_, rfl, .start hstmt hblock (.condition _) replay below, ?_⟩
          exact Nat.succ_ne_self _
        | none =>
          cases otherwise with
          | some b =>
            refine ⟨_, rfl, .start hstmt rfl (.condition .otherwise) replay below, ?_⟩
            exact Nat.succ_ne_self _
          | none => exact ⟨_, rfl, .leave _ below, (Nat.succ_ne_self _).symm⟩
  · rename_i hother
    refine other_ticked rfl front ?_
    rintro _ hstmt ⟨⟩
    exact hother _ _ _ hstmt

/-- The body of a loop starts again, or the loop is left. `again` is what is made of the test: a
retry also counts its attempts. -/
theorem test_ticked {kind kind' : FrameKind} {stmt : Stmt} {b : Block} (again : Bool → Bool)
    (going : m.pending = none)
    (front : m.activations = ⟨u, ⟨kind, replay⟩ :: below, subroutines, saved⟩ :: callers)
    (hstmt : env.program.stmt? u place = some stmt) (hb : stmt.block? .body = some b)
    (starts : ∀ holds, again holds = true → kind.Starts place .body kind')
    (test : Expr) (line : Line) :
    Ticked env m (m.settle env kind below line (m.evalTest env replay test) fun m holds =>
      if again holds then
        m.withFrames (Frame.block (place.child .body) 0 :: Frame.new kind' :: below)
      else m.withFrames below) := by
  refine settle_ticked going front line rfl (fun i hi => evalTest_error hi) ?_
  intro m holds _
  by_cases hagain : again holds = true
  · refine ⟨_, if_pos hagain, .start hstmt hb (starts holds hagain) replay below, ?_⟩
    exact Nat.succ_ne_self _
  · exact ⟨below, if_neg hagain, .leave _ below, (Nat.succ_ne_self _).symm⟩

/-- The two kinds of cycle run the same code with different frames, so the lemma is about a frame
that is of one of the two. -/
theorem runLoop_ticked {kind : LoopPhase → FrameKind} {phase : LoopPhase}
    (hkind : kind = .cycle place ∨ kind = .doCycle place) (going : m.pending = none)
    (front : m.activations =
      ⟨u, ⟨kind phase, replay⟩ :: below, subroutines, saved⟩ :: callers) :
    Ticked env m (m.runLoop env u place kind phase replay below) := by
  -- all that is needed of the kind of loop
  have starts : (kind .test).Starts place .body (kind .body) := by
    obtain rfl | rfl := hkind
    · exact .cycle
    · exact .doCycle
  have turns : (kind .body).Turns (kind .test) := by
    obtain rfl | rfl := hkind
    · exact .cycle place
    · exact .doCycle place
  have hplace : (kind .test).place? = some place := by
    obtain rfl | rfl := hkind <;> rfl
  unfold runLoop
  cases phase with
  | body => exact turn_ticked going front turns
  | test =>
    dsimp only
    split
    · exact test_ticked id going front ‹_› rfl (fun _ _ => starts) _ _
    · exact test_ticked id going front ‹_› rfl (fun _ _ => starts) _ _
    -- another statement stands there, so the frame does not run it
    · rename_i hcycle hdoCycle
      refine other_ticked hplace front ?_
      intro stmt hstmt hruns
      obtain rfl | rfl := hkind
      · cases hruns
        exact hcycle _ _ _ hstmt
      · cases hruns
        exact hdoCycle _ _ _ hstmt

theorem runRetry_ticked {phase : RetryPhase} {attempt max : UInt32} (going : m.pending = none)
    (front : m.activations =
      ⟨u, ⟨.retry place phase attempt max, replay⟩ :: below, subroutines,
        saved⟩ :: callers) :
    Ticked env m (m.runRetry env u place phase attempt max replay below) := by
  unfold runRetry
  dsimp only
  split
  · rename_i attempts body test line hstmt
    cases phase with
    | enter =>
      refine settle_ticked going front _ rfl (fun i hi => evalAttempts_error hi) ?_
      intro m n _
      refine ⟨_, rfl, .start hstmt rfl (.first attempt max n) replay below, ?_⟩
      exact Nat.succ_ne_self _
    | body =>
      cases test with
      | none => exact leave_ticked going front
      | some test => exact turn_ticked going front (.retry place attempt max)
    | test =>
      cases test with
      | none => exact leave_ticked going front
      | some test =>
        refine test_ticked (fun holds => holds && attempt < max) going front hstmt rfl ?_ test _
        intro holds hagain
        exact .again (by simpa using And.right (Bool.and_eq_true_iff.1 hagain))
  · rename_i hother
    refine other_ticked rfl front ?_
    rintro _ hstmt ⟨⟩
    exact hother _ _ _ _ hstmt

/-! ## Statements

A block runs its next statement, or is left behind the last one. A structured statement starts with
frames of its own, and a simple one is executed on the spot. -/

/-- What the frame of a block does. The lookups that fail are kept with the case `astray`; that they
do not fail is a matter of placement. -/
theorem runBlock_ticked {path : BlockPath} {next : Nat} (going : m.pending = none)
    (front : m.activations =
      ⟨u, ⟨.block path next, replay⟩ :: below, subroutines, saved⟩ :: callers) :
    Ticked env m (m.runBlock env u path next replay below) := by
  unfold runBlock
  rcases hblock : env.program.block? u path with _ | b
  · exact .astray (.inr (front ▸ .block hblock _ _ _ _ _ _))
  have hat := Program.stmt?_of_block? hblock next
  dsimp only
  rcases hstmt : b.body[next]? with _ | stmt
  · exact leave_ticked going front
  rw [hstmt] at hat
  dsimp only
  by_cases hs : stmt.isStructured = true
  · rw [if_pos hs]
    refine withFrames_ticked going front (.enter hat hs replay below) (kinds_ne_of_length ?_)
    have := length_enter_pos hs ⟨path, next⟩
    simp only [List.length_append, List.length_cons]
    omega
  rw [if_neg hs]
  rcases hexec : stmt.execute env m.store replay with _ | r
  · -- comments alone are neither structured nor executed
    have comment := Stmt.isComment_of_execute (Bool.not_eq_true _ ▸ hs) hexec
    exact .astray (.inr (front ▸ .comment hat comment _ _ _ _ _))
  dsimp only
  rcases hresult : r.result with i | effect
  · exact .stopped going front (.statement hat hexec hresult)
  · exact .ran going front hat hexec hresult

end

/-- **A micro-step does what the list says**, and nothing else. The cases are those of `tick`: the
token is looked at first, then a fault that is pending, then the frame in front. -/
theorem tick_ticked (env : Setting σ) (m : Machine σ) : Ticked env m (m.tick env) := by
  obtain hheed | ⟨hheed, hnext⟩ | ⟨line, hheed⟩ := heedCancel_cases env m
  · rw [tick, hheed]
    dsimp only
    rcases hpending : m.pending with _ | failure
    · rcases hacts : m.activations with _ | ⟨⟨u, frames, subroutines, saved⟩, callers⟩
      · exact .idle hpending hacts
      rcases frames with _ | ⟨⟨kind, replay⟩, below⟩
      · cases u with
        | main => exact .ended hpending
        | function name => exact .back hpending hacts
      cases kind with
      | block path next => exact runBlock_ticked hpending hacts
      | condition place phase => exact runCondition_ticked hpending hacts
      | cycle place phase => exact runLoop_ticked (.inl rfl) hpending hacts
      | doCycle place phase => exact runLoop_ticked (.inr rfl) hpending hacts
      | retry place phase attempt max => exact runRetry_ticked hpending hacts
      | tryCatch place phase => exact leave_ticked hpending hacts
    · exact .unwind hpending
  · rw [tick, hheed]
    exact .astray (.inl hnext)
  · rw [tick_cancelled hheed]
    exact .cancelled line

/-- **A micro-step moves the activations as listed in `Moves`**, and is a defect only for a reason.
What runs, stops or is caught has its lemma there, and a frame that is moved by a header moves by a
shift. -/
theorem tick_moved (env : Setting σ) (m : Machine σ) : Moved env m.activations (m.tick env) := by
  have ticked := tick_ticked env m
  generalize m.tick env = r at ticked
  cases ticked with
  | astray stray => exact ⟨.stay _, fun _ => stray⟩
  | cancelled => exact ⟨.clear _, nofun⟩
  | unwind => exact unwind_moved env m _
  | idle => exact ⟨.stay _, nofun⟩
  | ended => exact ⟨.clear _, nofun⟩
  | @back _ _ saved callers _ front =>
    refine .running ?_
    rw [returnFromFunction_activations front, front]
    exact .back (.inl rfl) saved callers _
  | @moved store _ _ frames _ _ _ _ _ front shifts =>
    refine .running ?_
    rw [withFrames_activations (m := { m with store }) front, front]
    exact .shift shifts _ _ _
  | @ran _ _ _ _ _ _ _ _ stmt r effect _ front hstmt hexec =>
    have passed := withFrames_activations (m := { m with store := r.store }) front
    refine (congrArg (Moved env · _) front).mpr ?_
    exact apply_moved hstmt (Stmt.simple_of_execute hexec).1 (passed _) stmt.line effect
  | @stopped _ _ replay _ _ _ _ _ store line i _ front =>
    have held := withFrames_activations (m := { m with store }) front
    refine (congrArg (Moved env · _) front).mpr (.running ?_)
    exact interrupt_moves (held _) line i replay

/-! ## Faults that are pending

Which operations touch the field for the fault. Apart from the search for a handler only `raise`
does, and it does so with the fault of this very micro-step. -/

section

variable {m' : Machine σ}

theorem pending_mapTop (m : Machine σ) (f : Activation → Activation) :
    (m.mapTop f).pending = m.pending := by
  unfold mapTop
  split <;> rfl

theorem pending_withFrames (m : Machine σ) (frames : List Frame) :
    (m.withFrames frames).pending = m.pending :=
  pending_mapTop m _

theorem pending_returnFromFunction (m : Machine σ) (v : Value) :
    (m.returnFromFunction v).pending = m.pending := by
  unfold returnFromFunction
  split
  · rfl
  · exact pending_mapTop _ _

theorem pending_ret (m : Machine σ) (v : Option Value) : (m.ret v).pending = m.pending := by
  unfold ret
  split
  · rfl
  split
  · exact pending_mapTop m _
  split
  · exact pending_returnFromFunction m _
  · rfl

theorem pending_jump {label : String} (h : m.jump env label = some (.ok m')) :
    m'.pending = m.pending := by
  obtain ⟨frames, rfl⟩ := jump_eq h
  exact pending_withFrames m frames

theorem pending_gosub {label : String} (h : m.gosub env label = some (.ok m')) :
    m'.pending = m.pending := by
  obtain ⟨frames, rfl⟩ := gosub_eq h
  exact (pending_withFrames _ frames).trans (pending_mapTop m _)

theorem apply_pending (env : Setting σ) (m : Machine σ) (line : Line) (effect : Effect) :
    (m.apply env line effect).2.pending = m.pending ∨
      ∃ fault, (m.apply env line effect).2 = m.raise line fault := by
  cases effect with
  | value v => simp [apply, recorded_snd]
  | delay ns v => simp [apply, recorded_snd]
  | suspend => simp [apply, recorded_snd]
  | exit status => simp [apply, recorded_snd, terminate]
  | ret v => simp [apply, recorded_snd, pending_ret]
  | jump label =>
    rcases hjump : m.jump env label with _ | fault | m'
    · simp [apply, hjump]
    · exact .inr ⟨fault, by simp [apply, hjump]⟩
    · simp [apply, hjump, recorded_snd, pending_jump hjump]
  | sub label =>
    rcases hgosub : m.gosub env label with _ | fault | m'
    · simp [apply, hgosub]
    · exact .inr ⟨fault, by simp [apply, hgosub]⟩
    · simp [apply, hgosub, recorded_snd, pending_gosub hgosub]

/-- A call of a function is refused with a fault, or the function is put in front. Of the rest of
the machine only the scope changes. -/
theorem callFunction_eq (env : Setting σ) (m : Machine σ) (line : Line) (name : String)
    (args : List Value) :
    (∃ scope f, m.callFunction env line name args = (m.withScope scope).raise line f) ∨
      ∃ scope shadowed, m.callFunction env line name args =
        { m.withScope scope with
          activations := Activation.new (.function name) shadowed :: m.activations } := by
  unfold callFunction
  split
  · exact .inl ⟨m.scope, _, rfl⟩
  split
  · exact .inl ⟨m.scope, _, rfl⟩
  split
  · exact .inl ⟨m.scope, _, rfl⟩
  split
  · exact .inl ⟨_, _, rfl⟩
  · exact .inr ⟨_, _, rfl⟩

/-- A function that starts leaves the fault alone, and one that is refused raises one of its own. -/
theorem callFunction_pending (env : Setting σ) (m : Machine σ) (line : Line) (name : String)
    (args : List Value) :
    (m.callFunction env line name args).pending = m.pending ∨
      ∃ m₁ fault, m.callFunction env line name args = raise m₁ line fault := by
  obtain ⟨scope, fault, heq⟩ | ⟨scope, shadowed, heq⟩ :=
    callFunction_eq env m line name args
  · exact .inr ⟨_, fault, heq⟩
  · rw [heq]
    exact .inl rfl

/-- A fault that is new was raised just now. So whatever holds of all that is raised holds of every
fault of a run. -/
theorem Ticked.raised {r : Tick × Machine σ} (h : Ticked env m r) (going : m.pending = none) :
    r.2.pending = none ∨ ∃ m₁ line fault, r.2 = raise m₁ line fault := by
  cases h with
  | astray => exact .inl going
  | cancelled => exact .inl rfl
  | unwind pending => simp [going] at pending
  | idle => exact .inl going
  | ended => exact .inl rfl
  | back => exact .inl ((pending_returnFromFunction m _).trans going)
  | moved => exact .inl ((pending_withFrames _ _).trans going)
  | ran _ front hstmt hexec hresult =>
    obtain hkept | ⟨fault, hraise⟩ := apply_pending env _ _ _
    · exact .inl (hkept.trans ((pending_withFrames _ _).trans going))
    · exact .inr ⟨_, _, fault, hraise⟩
  | @stopped _ _ _ _ _ _ _ _ store line i _ front stops =>
    cases i with
    | fault f => exact .inr ⟨_, line, f, rfl⟩
    | call name args =>
      obtain hkept | ⟨m₁, fault, hraise⟩ :=
        callFunction_pending env ({ m with store }.withFrames _) line name args
      · exact .inl (hkept.trans ((pending_withFrames _ _).trans going))
      · exact .inr ⟨m₁, line, fault, hraise⟩

end

/-! ## Records

A record is what a step shows, so a record is where the outside sees a run. -/

/-- Unwinding shows no record, wherever it comes to. -/
theorem unwind_ne_record (env : Setting σ) (m : Machine σ) (failure : Failure)
    (record : StepRecord) :
    (m.unwind env failure).1 ≠ .record record := by
  unfold unwind
  by_cases hterminal : failure.fault.isTerminal = true
  · rw [if_pos hterminal]
    exact nofun
  rw [if_neg hterminal]
  split
  · exact nofun
  · split <;> exact nofun

/-- Only the simple statement in front shows a record, and only if it is done. What it asked for is
one of the effects that it can have, and the rest of the micro-step is to apply that. -/
theorem Ticked.of_record {r : Tick × Machine σ} {record : StepRecord} (h : Ticked env m r)
    (hrecord : r.1 = .record record) {path : BlockPath} {next : Nat} {replay : List Value}
    {below : List Frame} {stmt : Stmt}
    (front : m.activations =
      ⟨u, ⟨.block path next, replay⟩ :: below, subroutines, saved⟩ :: callers)
    (hstmt : env.program.stmt? u ⟨path, next⟩ = some stmt) :
    ∃ (e : Evaluated σ Effect) (effect : Effect), stmt.Yields effect ∧
      r = ({ m with store := e.store }.withFrames
      (⟨.block path (next + 1), e.replay⟩ :: below)).apply env stmt.line effect := by
  cases h with
  | astray => cases hrecord
  | cancelled => cases hrecord
  | unwind pending => exact absurd hrecord (unwind_ne_record env m _ record)
  | idle => cases hrecord
  | ended => cases hrecord
  | back => cases hrecord
  | moved => cases hrecord
  | @ran _ _ _ _ _ _ _ _ _ e effect going front' hstmt' hexec hresult =>
    rw [front] at front'
    cases front'
    rw [hstmt] at hstmt'
    cases hstmt'
    exact ⟨e, effect, Stmt.yields_of_execute hexec hresult, rfl⟩
  | stopped => cases hrecord

end Machine

end Stepwise
