import Stepwise.Proofs.Cancellation
import Stepwise.Proofs.Decomposition

/-!
# Outputs that are missing

What the answer of a service lacks is noted among the warnings of the run, in the micro-step that
completes the plan of the assignment. An evaluation that stops for a function notes nothing: it
keeps the results of its calls and starts again behind the function (`AtAssignment.waits`), and once
its plan is complete, the assignment is over (`AtAssignment.isOver`). **So the warnings of a run are
those of its completed plans, each once** (`Logged.warnings`), however often an evaluation was
started.

## How the warnings of a run are counted

A warning could be noted twice in two ways: by an evaluation that is started again, and by a plan
that is complete and then starts over. The first is excluded by what one micro-step does to the
warnings (`tick_warnings`): it adds those of the plan that it completes, and nothing else in the
machine touches them. The second is excluded by where the machine is afterwards: behind the
assignment, or at a fault, and in both cases without results (`Over`). The log of a run is then
written down as an inductive predicate, with one constructor for completed plans.

Plans themselves are the subject of `Proofs/Decomposition`. The theorem at the end has both, what a
complete plan is made of and how often it is noted.
-/

namespace Stepwise

/-! ## Statements

Only an assignment adds warnings, when its plan is complete. -/

/-- The warnings about what a plan misses, for the assignment on this line. -/
def AssignPlan.warnings (p : AssignPlan) (line : Line) : List RunWarning :=
  p.missing.map fun m => .missingOutput line m.service m.param

/-- The warnings of a plan, if one is complete. All that does not complete a plan adds the warnings
of none, so that there is one form for both. -/
def warningsOf (completed : Option (Line × AssignPlan)) : List RunWarning :=
  (completed.map fun done => done.2.warnings done.1).getD []

variable {σ : Type} {env : Setting σ}

namespace Evaluated

variable {α β : Type} {e : Evaluated σ α} {k : α → Store σ → Except Fault β × Store σ}

theorem commit_store_error {i : Interrupt} (h : e.result = .error i) :
    (e.commit k).store = e.store := by
  unfold commit
  rw [h]

theorem commit_store_ok {a : α} (h : e.result = .ok a) : (e.commit k).store = (k a e.store).2 := by
  unfold commit
  rw [h]
  dsimp only
  split
  · rename_i hk
    rw [hk]
  · rename_i hk
    rw [hk]

theorem commit_warnings (hk : ∀ a s, (k a s).2.warnings = s.warnings) :
    (e.commit k).store.warnings = e.store.warnings := by
  cases h : e.result with
  | error i => rw [commit_store_error h]
  | ok a => rw [commit_store_ok h, hk]

end Evaluated

namespace Stmt

/-- The plan that executing this statement completes, with its line. -/
def completing? (env : Setting σ) (s : Store σ) (replay : List Value) :
    Stmt → Option (Line × AssignPlan)
  | .assign targets op values line =>
    ((Assign.plan (env.context s) targets op values env.options.strictOutputs).run.run
      ⟨replay, 0, s.world⟩).1.toOption.map fun p => (line, p)
  | _ => none

variable {store : Store σ} {replay : List Value} {r : Evaluated σ Effect}

/-- An assignment notes what its plan misses before it writes, so also if the writing fails. -/
theorem execute_assign_warnings {targets values : List Expr} {op : AssignOp} {line : Line}
    (h : (Stmt.assign targets op values line).execute env store replay = some r) :
    r.store.warnings = store.warnings ++
      warningsOf ((Stmt.assign targets op values line).completing? env store replay) := by
  cases h
  rcases hplan :
    (Assign.plan (env.context store) targets op values env.options.strictOutputs).run.run
    ⟨replay, 0, store.world⟩ with ⟨i | p, st⟩
  · have hresult : (store.eval env replay fun c =>
        Assign.plan c targets op values env.options.strictOutputs).result = .error i :=
      congrArg Prod.fst hplan
    rw [Evaluated.commit_store_error hresult]
    simp [completing?, hplan, warningsOf, Except.toOption, Store.eval, Store.run]
  · have hresult : (store.eval env replay fun c =>
        Assign.plan c targets op values env.options.strictOutputs).result = .ok p :=
      congrArg Prod.fst hplan
    rw [Evaluated.commit_store_ok hresult]
    simp [completing?, hplan, warningsOf, AssignPlan.warnings, Except.toOption,
      Store.eval, Store.run]

/-- **A statement adds the warnings of the plan it completes**, and no others. Statements that are
no assignments complete none. -/
theorem execute_warnings {stmt : Stmt} (h : stmt.execute env store replay = some r) :
    r.store.warnings = store.warnings ++ warningsOf (stmt.completing? env store replay) := by
  -- every statement but an assignment evaluates and commits without a warning
  have quiet : ∀ {α : Type} {e : Evaluated σ α} {k : α → Store σ →
      Except Fault Effect × Store σ}, e.store.warnings = store.warnings →
      (∀ a s, (k a s).2.warnings = s.warnings) →
        (e.commit k).store.warnings = store.warnings ++ warningsOf none := by
    intro α e k he hk
    rw [Evaluated.commit_warnings hk, he, warningsOf, Option.map_none, Option.getD_none,
      List.append_nil]
  cases stmt with
  -- the one statement that has a plan
  | assign => exact execute_assign_warnings h
  | compound | condition | cycle | doCycle | retry | tryCatch | included | comment | doc => cases h
  | label | noop | function | goto | gosub | suspend =>
    cases h
    exact (List.append_nil _).symm
  | const | error | throw | status | call | input =>
    cases h
    exact quiet rfl fun _ _ => rfl
  | ret value =>
    cases value with
    | none =>
      cases h
      exact (List.append_nil _).symm
    | some e =>
      cases h
      exact quiet rfl fun _ _ => rfl
  | exit status =>
    cases status with
    | none =>
      cases h
      exact (List.append_nil _).symm
    | some e =>
      cases h
      exact quiet rfl fun _ _ => rfl
  | declareWeb name params outputs calledAs url =>
    cases url with
    | none =>
      cases h
      exact (List.append_nil _).symm
    | some e =>
      cases h
      exact quiet rfl fun _ _ => rfl
  | delay =>
    cases h
    refine quiet rfl fun v s => ?_
    split
    · rfl
    · split <;> rfl

end Stmt

namespace Machine

variable {m m' : Machine σ}

/-! ## What keeps the warnings

Every operation of the machine, one after the other. Frames and units may change, and the scope; the
warnings do not. -/

theorem store_withFrames (m : Machine σ) (frames : List Frame) :
    (m.withFrames frames).store = m.store := by
  unfold withFrames mapTop
  split <;> rfl

theorem warnings_raise (m : Machine σ) (line : Line) (fault : Fault) :
    (m.raise line fault).store.warnings = m.store.warnings := by
  unfold raise mapFrame mapTop
  dsimp only
  split <;> rfl

theorem warnings_returnFromFunction (m : Machine σ) (v : Value) :
    (m.returnFromFunction v).store.warnings = m.store.warnings := by
  unfold returnFromFunction
  split
  · rfl
  · unfold mapFrame mapTop
    dsimp only
    split <;> rfl

theorem warnings_interrupt (m : Machine σ) (line : Line) (i : Interrupt) :
    (m.interrupt env line i).store.warnings = m.store.warnings := by
  cases i with
  | fault f => exact warnings_raise m line f
  | call name args =>
    rw [interrupt]
    obtain ⟨scope, f, heq⟩ | ⟨scope, shadowed, heq⟩ := callFunction_eq env m line name args
    · rw [heq, warnings_raise]
      rfl
    · rw [heq]
      rfl

theorem store_jump {label : String} (h : m.jump env label = some (.ok m')) :
    m'.store = m.store := by
  obtain ⟨frames, rfl⟩ := jump_eq h
  exact store_withFrames m frames

theorem store_gosub {label : String} (h : m.gosub env label = some (.ok m')) :
    m'.store = m.store := by
  obtain ⟨frames, rfl⟩ := gosub_eq h
  refine (store_withFrames _ frames).trans ?_
  unfold mapTop
  split <;> rfl

theorem warnings_ret (m : Machine σ) (v : Option Value) :
    (m.ret v).store.warnings = m.store.warnings := by
  unfold ret
  split
  · rfl
  split
  · unfold mapTop
    split <;> rfl
  split
  · exact warnings_returnFromFunction m _
  · rfl

theorem warnings_apply (m : Machine σ) (line : Line) (effect : Effect) :
    (m.apply env line effect).2.store.warnings = m.store.warnings := by
  cases effect with
  | value v => rw [apply, recorded_snd]
  | delay ns v => rw [apply, recorded_snd]
  | suspend => rw [apply, recorded_snd]
  | exit status =>
    rw [apply, recorded_snd]
    rfl
  | ret v => rw [apply, recorded_snd, warnings_ret]
  | jump label =>
    simp only [apply]
    split
    · rfl
    · exact warnings_raise m line _
    · rename_i m' h
      rw [recorded_snd, store_jump h]
  | sub label =>
    simp only [apply]
    split
    · rfl
    · exact warnings_raise m line _
    · rename_i m' h
      rw [recorded_snd, store_gosub h]

theorem warnings_unwind (m : Machine σ) (failure : Failure) :
    (m.unwind env failure).2.store.warnings = m.store.warnings := by
  unfold unwind
  split
  · rfl
  split
  · rfl
  split
  · rename_i m₁ h
    exact (handle_started h).warnings
  · rfl

theorem warnings_settle {α : Type} (m : Machine σ) (kind : FrameKind) (below : List Frame)
    (line : Line) {r : Except Interrupt α × List Value × Store σ}
    {k : Machine σ → α → Machine σ} (hr : r.2.2.warnings = m.store.warnings)
    (hk : ∀ m a, (k m a).store = m.store) :
    (m.settle env kind below line r k).2.store.warnings = m.store.warnings := by
  obtain ⟨result, replay, store⟩ := r
  cases result with
  | error i =>
    simp only [settle, warnings_interrupt, store_withFrames]
    exact hr
  | ok a =>
    simp only [settle, hk, store_withFrames]
    exact hr

theorem warnings_runCondition (m : Machine σ) (u : CodeUnit) (place : StmtPath)
    (phase : ConditionPhase) (replay : List Value) (below : List Frame) :
    (m.runCondition env u place phase replay below).2.store.warnings = m.store.warnings := by
  unfold runCondition
  split
  · rename_i branches otherwise line _
    cases phase with
    | branch => exact congrArg Store.warnings (store_withFrames m below)
    | test =>
      dsimp only
      rcases hrun : chooseBranch (env.context m.store) line 0 branches
        ⟨replay, 0, m.store.world⟩
        with ⟨⟨testLine, result⟩, st⟩
      rw [Store.run_eq hrun]
      refine warnings_settle m _ below testLine rfl fun m chosen => ?_
      cases chosen with
      | some i => exact store_withFrames m _
      | none => cases otherwise <;> exact store_withFrames m _
  · rfl

theorem warnings_runLoop (m : Machine σ) (u : CodeUnit) (place : StmtPath)
    (kind : LoopPhase → FrameKind) (phase : LoopPhase) (replay : List Value)
    (below : List Frame) :
    (m.runLoop env u place kind phase replay below).2.store.warnings = m.store.warnings := by
  have hagain : ∀ (m : Machine σ) (again : Bool) (frames : List Frame),
      (if again then m.withFrames frames else m.withFrames below).store = m.store := by
    intro m again frames
    split <;> exact store_withFrames m _
  cases phase with
  | body => exact congrArg Store.warnings (store_withFrames m _)
  | test =>
    simp only [runLoop]
    split
    · exact warnings_settle m _ below _ rfl fun m again => hagain m again _
    · exact warnings_settle m _ below _ rfl fun m again => hagain m again _
    · rfl

theorem warnings_runRetry (m : Machine σ) (u : CodeUnit) (place : StmtPath) (phase : RetryPhase)
    (attempt max : UInt32) (replay : List Value) (below : List Frame) :
    (m.runRetry env u place phase attempt max replay below).2.store.warnings =
      m.store.warnings := by
  unfold runRetry
  dsimp only
  split
  · rename_i attempts body test line _
    cases phase with
    | enter => exact warnings_settle m _ below _ rfl fun m n => store_withFrames m _
    | body => cases test <;> exact congrArg Store.warnings (store_withFrames m _)
    | test =>
      cases test with
      | none => exact congrArg Store.warnings (store_withFrames m below)
      | some test =>
        refine warnings_settle m _ below _ rfl fun m again => ?_
        split <;> exact store_withFrames m _
  · rfl

/-! ## What completes a plan -/

theorem completing?_of_execute {stmt : Stmt} {replay : List Value}
    (h : stmt.execute env m.store replay = none) : stmt.completing? env m.store replay = none := by
  cases stmt <;> first | rfl | cases h

/-- The statement in front is executed or entered, or the block is over. Only executing it can
complete a plan. -/
theorem runBlock_warnings (m : Machine σ) (u : CodeUnit) (path : BlockPath) (next : Nat)
    (replay : List Value) (below : List Frame) :
    (m.runBlock env u path next replay below).2.store.warnings = m.store.warnings ++
      warningsOf
        ((env.program.stmt? u ⟨path, next⟩).bind (Stmt.completing? env m.store replay)) := by
  have quiet : m.store.warnings = m.store.warnings ++ warningsOf none := (List.append_nil _).symm
  unfold runBlock
  cases hblock : env.program.block? u path with
  | none =>
    have hstmt : env.program.stmt? u ⟨path, next⟩ = none := by
      cases hstmt : env.program.stmt? u ⟨path, next⟩ with
      | none => rfl
      | some stmt =>
        obtain ⟨b, hb, -⟩ := Program.block?_of_stmt? hstmt
        rw [hblock] at hb
        cases hb
    rw [hstmt]
    exact quiet
  | some b =>
    have hstmt := Program.stmt?_of_block? hblock next
    rw [hstmt]
    dsimp only
    cases b.body[next]? with
    | none => exact (congrArg Store.warnings (store_withFrames m below)).trans quiet
    | some stmt =>
      dsimp only
      cases hs : stmt.isStructured with
      -- a structured statement completes nothing, since it is only entered
      | true =>
        have hnone : stmt.completing? env m.store replay = none := by
          cases stmt <;> first | rfl | cases hs
        rw [Option.bind_some, hnone]
        exact (congrArg Store.warnings (store_withFrames m _)).trans quiet
      | false =>
        rw [if_neg Bool.false_ne_true, Option.bind_some]
        cases hexec : stmt.execute env m.store replay with
        | none =>
          rw [completing?_of_execute hexec]
          exact quiet
        | some r =>
          rw [← Stmt.execute_warnings hexec]
          dsimp only
          cases r.result with
          | ok effect => rw [warnings_apply, store_withFrames]
          | error i => rw [warnings_interrupt, store_withFrames]

/-- The plan that the next micro-step completes, with the line of its assignment. -/
def completing? (env : Setting σ) (m : Machine σ) : Option (Line × AssignPlan) :=
  if m.pending.isSome || m.cancelled then none
  else
    match m.activations with
    | ⟨u, ⟨.block path next, replay⟩ :: _, _, _⟩ :: _ =>
      (env.program.stmt? u ⟨path, next⟩).bind (Stmt.completing? env m.store replay)
    | _ => none

/-- A cancelled machine completes nothing. It fails before the statement in front is looked at. -/
theorem tick_warnings_cancelled (hcancelled : m.cancelled = true) :
    (m.tick env).2.store.warnings = m.store.warnings := by
  cases hpending : m.pending with
  | some failure => rw [tick_pending hpending, warnings_unwind]
  | none =>
    cases hm : m.activations with
    | nil =>
      have hheed : m.heedCancel env = some m := by simp [heedCancel, hm]
      simp [tick, hheed, hpending, hm]
    | cons act callers =>
      cases hline : m.nextLine? env with
      | none =>
        have hheed : m.heedCancel env = none := by
          simp [heedCancel, hpending, hm, hcancelled, hline]
        simp [tick, hheed]
      | some line =>
        have hheed : m.heedCancel env = some (m.raise line .cancelled) := by
          simp [heedCancel, hpending, hm, hcancelled, hline]
        rw [tick_cancelled hheed]
        exact warnings_raise m line _

/-- **A micro-step adds the warnings of the plan it completes**, and no others. What it does else is
covered by the section before, operation by operation. -/
theorem tick_warnings (env : Setting σ) (m : Machine σ) :
    (m.tick env).2.store.warnings = m.store.warnings ++ warningsOf (m.completing? env) := by
  have quiet : m.store.warnings = m.store.warnings ++ warningsOf none := (List.append_nil _).symm
  cases hcancelled : m.cancelled with
  | true =>
    have hnone : m.completing? env = none := by simp [completing?, hcancelled]
    rw [hnone, ← quiet]
    exact tick_warnings_cancelled hcancelled
  | false =>
    have hheed : m.heedCancel env = some m := by simp [heedCancel, hcancelled]
    rw [tick, hheed]
    dsimp only
    cases hpending : m.pending with
    | some failure =>
      have hnone : m.completing? env = none := by simp [completing?, hpending]
      rw [hnone, ← quiet]
      exact warnings_unwind m failure
    | none =>
      dsimp only
      have hgoing : (m.pending.isSome || m.cancelled) = false := by simp [hpending, hcancelled]
      -- only the statement in front of a block can complete a plan; every other frame is quiet
      simp only [completing?, hgoing]
      cases hm : m.activations with
      | nil => exact quiet
      | cons act callers =>
        obtain ⟨u, frames, subroutines, saved⟩ := act
        cases frames with
        | nil =>
          cases u with
          | main => exact quiet
          | function name => exact (warnings_returnFromFunction m .null).trans quiet
        | cons frame below =>
          obtain ⟨kind, replay⟩ := frame
          cases kind with
          | block path next => exact runBlock_warnings m u path next replay below
          | condition place phase =>
            exact (warnings_runCondition m u place phase replay below).trans quiet
          | cycle place phase => exact (warnings_runLoop m u place _ phase replay below).trans quiet
          | doCycle place phase =>
            exact (warnings_runLoop m u place _ phase replay below).trans quiet
          | retry place phase attempt max =>
            exact (warnings_runRetry m u place phase attempt max replay below).trans quiet
          | tryCatch place phase =>
            exact (congrArg Store.warnings (store_withFrames m below)).trans quiet

/-! ## Assignments in front -/

/-- A machine whose next micro-step evaluates an assignment. It is a structure with data: where the
assignment stands, what is under it and what it consists of. -/
structure AtAssignment (env : Setting σ) (m : Machine σ) where
  unit : CodeUnit
  path : BlockPath
  next : Nat
  replay : List Value
  below : List Frame
  subroutines : List (List Frame)
  saved : List (String × Option Value)
  callers : List Activation
  targets : List Expr
  op : AssignOp
  values : List Expr
  line : Line
  going : m.pending = none
  uncancelled : m.cancelled = false
  front : m.activations =
    ⟨unit, ⟨.block path next, replay⟩ :: below, subroutines, saved⟩ :: callers
  assigns : env.program.stmt? unit ⟨path, next⟩ = some (.assign targets op values line)

namespace AtAssignment

/-- What its evaluation comes to, with the results of calls that are there. -/
def outcome (a : AtAssignment env m) : Except Interrupt AssignPlan × EvalState σ :=
  (Assign.plan (env.context m.store) a.targets a.op a.values env.options.strictOutputs).run.run
    ⟨a.replay, 0, m.store.world⟩

/-- The same units, with the one in front at another statement or with other results of calls. -/
def units (a : AtAssignment env m) (next : Nat) (replay : List Value) : List Activation :=
  ⟨a.unit, ⟨.block a.path next, replay⟩ :: a.below, a.subroutines, a.saved⟩ :: a.callers

theorem completing?_of_outcome (a : AtAssignment env m) {p : AssignPlan} {st : EvalState σ}
    (h : a.outcome = (.ok p, st)) : m.completing? env = some (a.line, p) := by
  have hplan : ((Assign.plan (env.context m.store) a.targets a.op a.values
      env.options.strictOutputs).run.run ⟨a.replay, 0, m.store.world⟩).1 = .ok p :=
    congrArg Prod.fst h
  simp only [completing?, a.going, a.uncancelled, a.front, a.assigns, Option.bind_some,
    Stmt.completing?, hplan]
  rfl

/-- A plan that is completed is that of an assignment in front, so the log can speak of
assignments. -/
theorem of_completing? {line : Line} {p : AssignPlan} (h : m.completing? env = some (line, p)) :
    ∃ (a : AtAssignment env m) (st : EvalState σ), a.line = line ∧
      a.outcome = (.ok p, st) := by
  unfold completing? at h
  split at h
  · cases h
  rename_i hgoing
  split at h
  · rename_i u path next replay below subroutines saved callers front
    obtain ⟨stmt, hstmt, hcompleting⟩ := Option.bind_eq_some_iff.mp h
    cases stmt with
    | assign targets op values line' =>
      obtain ⟨p', hp, heq⟩ := Option.map_eq_some_iff.mp hcompleting
      cases heq
      simp only [Bool.or_eq_true, not_or, Bool.not_eq_true, Option.isSome_eq_false_iff,
        Option.isNone_iff_eq_none] at hgoing
      refine ⟨⟨u, path, next, replay, below, subroutines, saved, callers, targets, op, values,
        line, hgoing.1, hgoing.2, front, hstmt⟩, _, rfl, Prod.ext ?_ rfl⟩
      show ((Assign.plan (env.context m.store) targets op values env.options.strictOutputs).run.run
        ⟨replay, 0, m.store.world⟩).1 = .ok p
      revert hp
      cases ((Assign.plan (env.context m.store) targets op values env.options.strictOutputs).run.run
        ⟨replay, 0, m.store.world⟩).1 with
      | error i => intro hp; cases hp
      | ok p' => intro hp; cases hp; rfl
    | _ => cases hcompleting
  · cases h

/-- The evaluation and the part that writes, as the statement is executed. Results of calls are kept
only if the evaluation stopped for a call. -/
theorem execute_eq (a : AtAssignment env m) :
    ∃ r, (Stmt.assign a.targets a.op a.values a.line).execute env m.store a.replay = some r ∧
      (∀ i, a.outcome.1 = .error i → r.result = .error i) ∧
      (∀ p, a.outcome.1 = .ok p → (∃ v, r.result = .ok (.value v)) ∨
        ∃ f, r.result = .error (.fault f)) ∧
      r.replay = if Interrupt.isCall a.outcome.1 then a.outcome.2.replay else [] := by
  refine ⟨_, rfl, fun i hi => ?_, fun p hp => ?_, Evaluated.commit_replay _ _⟩
  · have hresult : (m.store.eval env a.replay fun c =>
        Assign.plan c a.targets a.op a.values env.options.strictOutputs).result = .error i := hi
    simp only [Evaluated.commit, hresult]
  · have hresult : (m.store.eval env a.replay fun c =>
        Assign.plan c a.targets a.op a.values env.options.strictOutputs).result = .ok p := hp
    simp only [Evaluated.commit, hresult]
    cases (Target.bind _ p.bindings).1 with
    | error f => exact .inr ⟨f, rfl⟩
    | ok _ => exact .inl ⟨_, rfl⟩

theorem tick_eq (a : AtAssignment env m) {r : Evaluated σ Effect}
    (hexec : (Stmt.assign a.targets a.op a.values a.line).execute env m.store a.replay = some r) :
    (∀ effect, r.result = .ok effect → m.tick env =
      ({ m with store := r.store }.withFrames
        (⟨.block a.path (a.next + 1), r.replay⟩ :: a.below)).apply env a.line effect) ∧
    ∀ i, r.result = .error i → m.tick env =
      (.running, ({ m with store := r.store }.withFrames
        (⟨.block a.path a.next, r.replay⟩ :: a.below)).interrupt env a.line i) := by
  obtain ⟨b, hblock, hbody⟩ := Program.block?_of_stmt? a.assigns
  have htick : m.tick env = m.runBlock env a.unit a.path a.next a.replay a.below := by
    simp [tick, heedCancel, a.uncancelled, a.going, a.front]
  refine ⟨fun effect hresult => ?_, fun i hresult => ?_⟩
  · rw [htick]
    simp [runBlock, hblock, hbody, Stmt.isStructured, hexec, hresult, Stmt.line]
  · rw [htick]
    simp [runBlock, hblock, hbody, Stmt.isStructured, hexec, hresult, Stmt.line]

/-- The assignment is over: the run goes on behind it, or it has failed. Either way no results of
its calls are left, and evaluating it again is evaluating it anew. -/
def Over (a : AtAssignment env m) (m' : Machine σ) : Prop :=
  (m'.pending = none ∧ m'.activations = a.units (a.next + 1) []) ∨
    ∃ f, m'.pending = some ⟨a.line, f⟩ ∧ m'.activations = a.units a.next []

/-- The assignment waits for a function, with the results of calls so far; a call that is refused is
a fault. -/
def Waits (a : AtAssignment env m) (name : String) (results : List Value)
    (m' : Machine σ) : Prop :=
  (∃ shadowed, m'.pending = none ∧
    m'.activations = Activation.new (.function name) shadowed :: a.units a.next results) ∨
    ∃ f, m'.pending = some ⟨a.line, f⟩ ∧ m'.activations = a.units a.next []

theorem units_withFrames (a : AtAssignment env m) (store : Store σ) (next : Nat)
    (replay : List Value) :
    ({ m with store }.withFrames (⟨.block a.path next, replay⟩ :: a.below)).activations =
      a.units next replay := by
  have front : { m with store }.activations = _ := a.front
  exact withFrames_activations front _

theorem raise_fails (a : AtAssignment env m) {m' : Machine σ} {replay : List Value}
    (h : m'.activations = a.units a.next replay) (f : Fault) :
    (m'.raise a.line f).pending = some ⟨a.line, f⟩ ∧
      (m'.raise a.line f).activations = a.units a.next [] := by
  refine ⟨rfl, ?_⟩
  rw [raise_activations, h]
  rfl

/-- A plan that is complete is not made again: the assignment is over, and what follows finds no
results of it. -/
theorem isOver (a : AtAssignment env m) {p : AssignPlan} {st : EvalState σ}
    (h : a.outcome = (.ok p, st)) :
    a.Over (m.tick env).2 := by
  obtain ⟨r, hexec, -, hok, hreplay⟩ := a.execute_eq
  obtain ⟨hdone, hstops⟩ := a.tick_eq hexec
  -- results of calls are kept for a call only
  have hempty : r.replay = [] := by
    rw [hreplay, h]
    rfl
  rw [hempty] at hdone hstops
  obtain ⟨v, hresult⟩ | ⟨f, hresult⟩ := hok p (congrArg Prod.fst h)
  · left
    rw [hdone _ hresult, apply, recorded_snd]
    exact ⟨(pending_withFrames _ _).trans a.going, a.units_withFrames _ _ _⟩
  · right
    rw [hstops _ hresult]
    exact ⟨f, a.raise_fails (a.units_withFrames _ _ _) f⟩

/-- An evaluation that stops for a function keeps its results, so that no call is made twice. -/
theorem waits (a : AtAssignment env m) {name : String} {args : List Value} {st : EvalState σ}
    (h : a.outcome = (.error (.call name args), st)) : a.Waits name st.replay (m.tick env).2 := by
  obtain ⟨r, hexec, herror, -, hreplay⟩ := a.execute_eq
  obtain ⟨-, hstops⟩ := a.tick_eq hexec
  have hresults : r.replay = st.replay := by
    rw [hreplay, h]
    rfl
  rw [hresults] at hstops
  rw [hstops _ (herror _ (congrArg Prod.fst h))]
  have hunits := a.units_withFrames r.store a.next st.replay
  have hpending := (pending_withFrames { m with store := r.store }
    (⟨.block a.path a.next, st.replay⟩ :: a.below)).trans a.going
  revert hunits hpending
  generalize { m with store := r.store }.withFrames
    (⟨.block a.path a.next, st.replay⟩ :: a.below) = m'
  intro hunits hpending
  rw [interrupt]
  obtain ⟨scope, f, heq⟩ | ⟨scope, shadowed, heq⟩ := callFunction_eq env m' a.line name args
  · have hscope : (m'.withScope scope).activations = a.units a.next st.replay := hunits
    rw [heq]
    exact .inr ⟨f, a.raise_fails hscope f⟩
  · rw [heq]
    exact .inl
      ⟨shadowed, hpending, congrArg (Activation.new (.function name) shadowed :: ·) hunits⟩

end AtAssignment

/-! ## Runs -/

theorem Handled.warnings (h : Handled m m') : m'.store.warnings = m.store.warnings := by
  cases h <;> rfl

/-- The warnings of all plans that were completed on the way to a machine. The log is written from
the plans, and not from the warnings of the machine, which are compared with it afterwards. -/
inductive Logged (env : Setting σ) : Machine σ → List RunWarning → Prop where
  | new (scope : Scope) (world : σ) : Logged env (Machine.new scope world) []
  | completed {m : Machine σ} {ws : List RunWarning} (h : Logged env m ws) (a : AtAssignment env m)
      {p : AssignPlan} {st : EvalState σ} (done : a.outcome = (.ok p, st)) :
      Logged env (m.tick env).2 (ws ++ p.warnings a.line)
  /-- A micro-step that completes no plan. -/
  | other {m : Machine σ} {ws : List RunWarning} (h : Logged env m ws)
      (nothing : ∀ (a : AtAssignment env m) p st, a.outcome ≠ (.ok p, st)) :
      Logged env (m.tick env).2 ws
  | finish {m : Machine σ} {ws : List RunWarning} (h : Logged env m ws) (finished : Bool) :
      Logged env { m with finished } ws
  | handled {m m' : Machine σ} {ws : List RunWarning} (h : Logged env m ws)
      (handled : Handled m m') :
      Logged env m' ws

theorem completing?_eq_none
    (nothing : ∀ (a : AtAssignment env m) p st, a.outcome ≠ (.ok p, st)) :
    m.completing? env = none := by
  cases h : m.completing? env with
  | none => rfl
  | some done =>
    obtain ⟨a, st, -, houtcome⟩ := AtAssignment.of_completing? h
    exact absurd houtcome (nothing a done.2 st)

theorem Reachable.logged (h : Reachable env m) : ∃ ws, Logged env m ws := by
  induction h using Reachable.run_induction with
  | new scope world => exact ⟨[], .new scope world⟩
  | @act m m' _ hact ih =>
    obtain ⟨ws, hws⟩ := ih
    cases hact with
    | finish finished => exact ⟨ws, hws.finish finished⟩
    | handled h => exact ⟨ws, hws.handled h⟩
    | tick =>
      by_cases hdone : ∃ (a : AtAssignment env m) (p : AssignPlan) (st : EvalState σ),
          a.outcome = (.ok p, st)
      · obtain ⟨a, p, st, houtcome⟩ := hdone
        exact ⟨_, hws.completed a houtcome⟩
      · exact ⟨ws, hws.other fun a p st houtcome => hdone ⟨a, p, st, houtcome⟩⟩

/-- **The warnings of a run are those of its completed plans**, each once and in order. By induction
over the log, with `tick_warnings` for each micro-step. -/
theorem Logged.warnings {ws : List RunWarning} (h : Logged env m ws) : m.store.warnings = ws := by
  induction h with
  | new scope world => rfl
  | completed _ a houtcome ih =>
    rw [tick_warnings, a.completing?_of_outcome houtcome, ih]
    rfl
  | other _ nothing ih =>
    rw [tick_warnings, completing?_eq_none nothing, ih]
    exact List.append_nil _
  | finish _ _ ih => exact ih
  | handled _ h ih => exact h.warnings.trans ih

/-- **Answers are taken apart by position, and being strict only turns warnings into faults.** -/
theorem decompositions_by_position (env : Setting σ) :
    (∀ (c : EvalContext σ) (targets args : List Expr) (op : AssignOp) (name : String)
      (line : Line) (signature : WebSignature) (st : EvalState σ),
      2 ≤ targets.length → c.scope.web? name = some signature →
      let plan (strict : Bool) :=
        (Assign.plan c targets op [.call name args line] strict).run.run st
      (∀ p st', plan false = (.ok p, st') →
        (∃ response mid, (Eval.call c name args).run.run st = (.ok response, mid) ∧
          Assign.Decomposed c targets op name signature response p) ∧
        (p.missing = [] → plan true = (.ok p, st')) ∧
        ∀ m more, p.missing = m :: more →
          ∃ mid,
            plan true = (.error (.fault (.missingOutputParameter m.service m.param)), mid)) ∧
      ∀ i st', plan false = (.error i, st') → plan true = (.error i, st') ∨
        ∃ param mid, plan true = (.error (.fault (.missingOutputParameter name param)), mid)) ∧
    (∀ m, Reachable env m → ∃ ws, Logged env m ws) ∧
    (∀ m ws, Logged env m ws → m.store.warnings = ws) ∧
    ∀ m (a : AtAssignment env m),
      (∀ p st, a.outcome = (.ok p, st) → a.Over (m.tick env).2) ∧
      ∀ name args st, a.outcome = (.error (.call name args), st) →
        a.Waits name st.replay (m.tick env).2 := by
  refine ⟨?_, fun m h => h.logged, fun m ws h => h.warnings, fun m a =>
    ⟨fun p st h => a.isOver h, fun name args st h => a.waits h⟩⟩
  intro c targets args op name line signature st several web plan
  rcases hcall : (Eval.call c name args).run.run st with ⟨i | response, mid⟩
  · have hplan : ∀ strict, plan strict = (.error i, mid) := Assign.plan_stopped several web hcall
    refine ⟨fun p st' h => ?_, fun i' st' h => .inl ?_⟩
    · rw [hplan] at h
      cases h
    · rw [hplan] at h ⊢
      exact h
  · have hlenient : plan false = _ := Assign.plan_lenient several web hcall (.inl rfl)
    refine ⟨fun p st' h => ?_, fun i st' h => ?_⟩
    · rw [hlenient] at h
      have hparts := Assign.decomposed_of_taken h
      refine ⟨⟨response, mid, rfl, hparts⟩, fun hnone => ?_,
        fun m more hmissing => ⟨mid, ?_⟩⟩
      · rw [hparts.missing] at hnone
        exact (Assign.plan_lenient several web hcall (.inr hnone)).trans h
      · rw [hparts.missing] at hmissing
        exact Assign.plan_missing several web hcall hmissing
    · rw [hlenient] at h
      -- the lenient plan failed later, at a target; the strict one gets there only if nothing is
      -- missing
      cases hmissing : Assign.missingAt signature response name targets.length with
      | nil => exact .inl ((Assign.plan_lenient several web hcall (.inr hmissing)).trans h)
      | cons m more =>
        have hservice : m.service = name := by
          have hmem : m ∈ Assign.missingAt signature response name targets.length := by
            rw [hmissing]
            exact List.mem_cons_self
          obtain ⟨j, -, rfl⟩ := List.mem_map.mp hmem
          rfl
        refine .inr ⟨m.param, mid, ?_⟩
        rw [← hservice]
        exact Assign.plan_missing several web hcall hmissing

/-- The index of the first target is the value of a function, so the answer of the service waits for
it. -/
def deferring : Block :=
  .mk
    [.function "slot" [] (.mk [.ret (some (.num 0.0 2)) 2] 1 3) 1,
      .declareWeb "Quote" [] ["price", "unit"] none none 4,
      .assign [.index (.var "a" 5) (.call "slot" [] 5) 5, .var "b" 5, .var "c" 5] .set
        [.call "Quote" [] 5] 5]
    0 6

/-- A host whose services all answer with a unit and no price. -/
def unpriced : Host Unit where
  invoke _ w := (.ok (.struct [("unit", .str "kg")]), w)
  report _ w := w
  now w := ("", w)

/-- The service has answered when the function starts, and nothing is noted. Once the function is
back, the price and the third output are, and the assignment is over; a strict plan would have
failed for the price. -/
theorem decompositions_by_position_deferring :
    let env : Setting Unit := ⟨Program.link deferring, .default, unpriced⟩
    let m := Machine.new .empty ()
    let c := env.context (m.ticks env 4).store
    let targets : List Expr := [.index (.var "a" 5) (.call "slot" [] 5) 5, .var "b" 5, .var "c" 5]
    let signature : WebSignature := ⟨"Quote", [], ["price", "unit"], none⟩
    let st : EvalState Unit := ⟨[.struct [("unit", .str "kg")], .num 0.0], 0, ()⟩
    let plan (strict : Bool) := (Assign.plan c targets .set [.call "Quote" [] 5] strict).run.run st
    ((m.ticks env 3).activations.length = 2 ∧ (m.ticks env 3).store.warnings = []) ∧
    Logged env (m.ticks env 5) [.missingOutput 5 "Quote" "price", .missingOutput 5 "Quote" "#3"] ∧
    (∃ a : AtAssignment env (m.ticks env 4), a.Over (m.ticks env 5)) ∧
    2 ≤ targets.length ∧ c.scope.web? "Quote" = some signature ∧
    ∃ p st' response mid mid', plan false = (.ok p, st') ∧
      (Eval.call c "Quote" []).run.run st = (.ok response, mid) ∧
      Assign.Decomposed c targets .set "Quote" signature response p ∧
      plan true = (.error (.fault (.missingOutputParameter "Quote" "price")), mid') := by
  intro env m c targets signature st plan
  obtain ⟨hparts, hlogged, hwarnings, hsteps⟩ := decompositions_by_position env
  have hweb : c.scope.web? "Quote" = some signature := by decide +kernel
  refine ⟨by decide +kernel, ?_, ?_, by decide, hweb, ?_⟩
  -- what the log holds is known by evaluation, and that it is right by the theorem
  · obtain ⟨ws, hws⟩ := hlogged (m.ticks env 5) ((Reachable.new .empty ()).ticks 5)
    have hall : (m.ticks env 5).store.warnings =
        [.missingOutput 5 "Quote" "price", .missingOutput 5 "Quote" "#3"] := by decide +kernel
    rw [← hall, hwarnings _ ws hws]
    exact hws
  · have hcompleting : ((m.ticks env 4).completing? env).isSome = true := by decide +kernel
    obtain ⟨done, hdone⟩ := Option.isSome_iff_exists.mp hcompleting
    obtain ⟨a, st, -, houtcome⟩ := AtAssignment.of_completing? hdone
    rw [ticks_succ]
    exact ⟨a, (hsteps _ a).1 _ st houtcome⟩
  · have hlenient : (plan false).1.toOption.map AssignPlan.missing =
        some [⟨"Quote", "price"⟩, ⟨"Quote", "#3"⟩] := by decide +kernel
    rcases hplan : plan false with ⟨i | p, st'⟩
    · rw [hplan] at hlenient
      cases hlenient
    · rw [hplan] at hlenient
      obtain ⟨⟨response, mid, hcall, hdecomposed⟩, -, hstrict⟩ :=
        (hparts c targets [] .set "Quote" 5 signature st (by decide) hweb).1 p st' hplan
      obtain ⟨mid', htrue⟩ := hstrict _ _ (Option.some.inj hlenient)
      exact ⟨p, st', response, mid, mid', rfl, hcall, hdecomposed, htrue⟩

end Machine

end Stepwise
