import Stepwise.Machine.Run

/-!
# What a machine asks of its owner

Two fields of a machine are messages to its owner: the delay to wait for, and that the script
suspended itself. A micro-step may write them and never reads them, so **machines that differ in
them alone stay that way** and come to the same records, ends and failures (`Alike.tick`,
`Alike.step`).

This is what makes a pause harmless. A session takes the delay and resumes the machine between two
calls, and a run without pauses does neither, so the two runs never hold the same machine again
after the first pause. They do hold machines that are alike, and by the results here that is enough
to compare what they show (`Proofs/Driving`).

The proof follows the machine function by function. `asking` sets both fields, and every function
below a micro-step is shown to commute with it. All but one of them leave the two fields alone, so
the same delay and flag stand on both sides of the equation; `apply` writes them for two of its
effects, and from there on up the statements say that there are some values (`apply_asking`,
`runBlock_asking`, `tick_asking`).
-/

namespace Stepwise.Machine

variable {σ : Type} {env : Setting σ}

/-! ## Functions that commute with asking

What a definition reads of the machine is rewritten by the projections, which are `simp` lemmas;
what it does to the machine is then a case split on what it has read, with the same outcome on both
sides. -/

/-- The machine with another delay to wait for, suspended or not. Any two values may be put in, so
`m.asking m.delay m.suspended` is `m` and every machine that differs in these fields alone is of
this form. -/
def asking (m : Machine σ) (delay : Option Nat) (suspended : Bool) : Machine σ :=
  { m with delay, suspended }

section

variable (m : Machine σ) (d : Option Nat) (b : Bool)

@[simp] theorem asking_activations : (m.asking d b).activations = m.activations := rfl

@[simp] theorem asking_pending : (m.asking d b).pending = m.pending := rfl

@[simp] theorem asking_store : (m.asking d b).store = m.store := rfl

@[simp] theorem asking_scope : (m.asking d b).scope = m.scope := rfl

@[simp] theorem asking_withScope (scope : Scope) :
    (m.asking d b).withScope scope = (m.withScope scope).asking d b := rfl

@[simp] theorem asking_nextLine? : (m.asking d b).nextLine? env = m.nextLine? env := rfl

@[simp] theorem mapTop_asking (f : Activation → Activation) :
    (m.asking d b).mapTop f = (m.mapTop f).asking d b := by
  simp only [mapTop, asking_activations]
  cases m.activations <;> rfl

@[simp] theorem withFrames_asking (frames : List Frame) :
    (m.asking d b).withFrames frames = (m.withFrames frames).asking d b :=
  m.mapTop_asking d b _

@[simp] theorem raise_asking (line : Line) (fault : Fault) :
    (m.asking d b).raise line fault = (m.raise line fault).asking d b := by
  simp only [raise, mapFrame, mapTop_asking]
  rfl

/-- A call is refused or made for reasons that lie in the program, the depth and the scope. None of
these is changed by asking, and a function that starts asks for nothing yet. -/
theorem callFunction_asking (line : Line) (name : String) (args : List Value) :
    (m.asking d b).callFunction env line name args =
      (m.callFunction env line name args).asking d b := by
  simp only [callFunction, asking_activations, asking_scope]
  cases env.program.function? name with
  | none => exact m.raise_asking d b _ _
  | some fn =>
    dsimp only
    by_cases hdepth : env.options.maxCallDepth < m.activations.length
    · simp only [if_pos hdepth, raise_asking]
    by_cases hargs : fn.params.length ≠ args.length
    · simp only [if_neg hdepth, if_pos hargs, raise_asking]
    simp only [if_neg hdepth, if_neg hargs]
    rcases bindParams m.scope [] (fn.params.zip args) with ⟨f | saved, scope⟩
    · simp only [asking_withScope, raise_asking]
    · rfl

theorem interrupt_asking (line : Line) (i : Interrupt) :
    (m.asking d b).interrupt env line i = (m.interrupt env line i).asking d b := by
  cases i with
  | fault f => exact m.raise_asking d b line f
  | call name args => exact m.callFunction_asking d b line name args

theorem returnFromFunction_asking (value : Value) :
    (m.asking d b).returnFromFunction value = (m.returnFromFunction value).asking d b := by
  simp only [returnFromFunction, asking_activations]
  cases m.activations with
  | nil => rfl
  | cons act rest =>
    exact mapTop_asking
      { m.withScope (m.scope.restoreAll act.saved) with activations := rest } d b _

theorem ret_asking (value : Option Value) :
    (m.asking d b).ret value = (m.ret value).asking d b := by
  simp only [ret, asking_activations]
  cases m.activations with
  | nil => rfl
  | cons act rest =>
    dsimp only
    cases act.subroutines with
    | cons frames older => exact m.mapTop_asking d b _
    | nil =>
      dsimp only
      cases act.unit with
      | function name => exact m.returnFromFunction_asking d b _
      | main => rfl

theorem jump_asking (label : String) :
    (m.asking d b).jump env label = (m.jump env label).map (Except.map (asking · d b)) := by
  simp only [jump, asking_activations]
  cases m.activations with
  | nil => rfl
  | cons act rest =>
    dsimp only
    cases env.program.label? act.unit label with
    | none => rfl
    | some target =>
      dsimp only
      cases env.program.unitRoot? act.unit with
      | none => rfl
      | some root =>
        dsimp only
        cases Frame.resume root target with
        | none => rfl
        | some frames =>
          simp only [withFrames_asking]
          rfl

theorem gosub_asking (label : String) :
    (m.asking d b).gosub env label = (m.gosub env label).map (Except.map (asking · d b)) := by
  simp only [gosub, asking_activations, mapTop_asking, jump_asking]
  cases m.activations with
  | nil => rfl
  | cons act rest =>
    dsimp only
    by_cases hdepth : env.options.maxCallDepth ≤ act.subroutines.length
    · simp only [if_pos hdepth]
      rfl
    by_cases hlabel : (env.program.label? act.unit label).isNone
    · simp only [if_neg hdepth, if_pos hlabel]
      rfl
    · simp only [if_neg hdepth, if_neg hlabel]

theorem recorded_asking (line : Line) (value : Option Value) :
    (m.asking d b).recorded env line value =
      Prod.map id (asking · d b) (m.recorded env line value) := by
  simp only [recorded, asking_nextLine?]
  cases m.nextLine? env <;> rfl

/-- The variable of a try statement is set, or cannot be, whatever the machine asks for. Finding the
handler does not look at it either, so a whole unwinding commutes (`unwind_asking`). -/
theorem handle_asking (failure : Failure) (c : Caught) :
    (m.asking d b).handle env failure c = (m.handle env failure c).map (asking · d b) := by
  unfold handle
  cases c.handler with
  | retry place attempt max => rfl
  | tryCatch place =>
    dsimp only
    rcases env.program.stmt? c.activation.unit place with _ | stmt
    · rfl
    cases stmt with
    | tryCatch body catchVar handler line =>
      cases catchVar with
      | none => rfl
      | some name =>
        -- The scope that decides is that of the handler, but it stands inside the machine with the
        -- new frames, so the records have to be opened first.
        simp only [withFrames, mapTop, Machine.scope, withScope, asking]
        cases c.scope.set name failure.fault.payload <;> rfl
    | _ => rfl

theorem unwind_asking (failure : Failure) :
    (m.asking d b).unwind env failure =
      Prod.map id (asking · d b) (m.unwind env failure) := by
  simp only [unwind, asking_activations, asking_scope, handle_asking]
  by_cases hterminal : failure.fault.isTerminal = true
  · simp only [if_pos hterminal]
    rfl
  simp only [if_neg hterminal]
  rcases findCaught m.scope m.activations with scope | c
  · rfl
  · dsimp only
    cases m.handle env failure c <;> rfl

/-- Only a delay and a suspension change what a machine asks for. They set a field to a value of
their own, so afterwards the two machines may even agree in it; the other effects keep the
difference. -/
theorem apply_asking (line : Line) (effect : Effect) :
    ∃ d' b', (m.asking d b).apply env line effect =
      Prod.map id (asking · d' b') (m.apply env line effect) := by
  cases effect with
  | value v => exact ⟨d, b, m.recorded_asking d b line v⟩
  | ret v =>
    refine ⟨d, b, ?_⟩
    simp only [apply, ret_asking, recorded_asking]
  | exit status => exact ⟨d, b, (m.terminate status).recorded_asking d b line status⟩
  -- these two overwrite one of the fields, so that field is the same on both sides from here on
  | delay ns v =>
    exact ⟨some ns, b, recorded_asking { m with delay := some ns } (some ns) b line (some v)⟩
  | suspend => exact ⟨d, true, recorded_asking { m with suspended := true } d true line none⟩
  -- whether the label is found does not depend on the two fields
  | jump label =>
    refine ⟨d, b, ?_⟩
    simp only [apply, jump_asking]
    rcases m.jump env label with _ | f | m'
    · rfl
    · simp only [Option.map_some, Except.map, raise_asking]
      rfl
    · exact m'.recorded_asking d b line none
  | sub label =>
    refine ⟨d, b, ?_⟩
    simp only [apply, gosub_asking]
    rcases m.gosub env label with _ | f | m'
    · rfl
    · simp only [Option.map_some, Except.map, raise_asking]
      rfl
    · exact m'.recorded_asking d b line none

/-- Deal with an evaluation that is over or has stopped, if going on with its value commutes with
asking. -/
theorem settle_asking {α : Type} (kind : FrameKind) (below : List Frame) (line : Line)
    (r : Except Interrupt α × List Value × Store σ) {k : Machine σ → α → Machine σ}
    (hk : ∀ m a, k (asking m d b) a = (k m a).asking d b) :
    (m.asking d b).settle env kind below line r k =
      Prod.map id (asking · d b) (m.settle env kind below line r k) := by
  obtain ⟨result, replay, store⟩ := r
  -- The store is replaced before the frames are, so that the lemma on frames is used at another
  -- machine.
  have hframes : { m.asking d b with store }.withFrames (⟨kind, replay⟩ :: below) =
      ({ m with store }.withFrames (⟨kind, replay⟩ :: below)).asking d b :=
    withFrames_asking { m with store } d b _
  simp only [settle, hframes]
  cases result with
  | ok a => simp only [hk, Prod.map, id]
  | error i => simp only [interrupt_asking, Prod.map, id]

/-- A block is the one kind of frame that runs simple statements, and so the only one that can
change what the machine asks for. -/
theorem runBlock_asking (u : CodeUnit) (path : BlockPath) (next : Nat) (replay : List Value)
    (below : List Frame) :
    ∃ d' b', (m.asking d b).runBlock env u path next replay below =
      Prod.map id (asking · d' b') (m.runBlock env u path next replay below) := by
  unfold runBlock
  rcases env.program.block? u path with _ | block
  · exact ⟨d, b, rfl⟩
  dsimp only
  rcases block.body[next]? with _ | stmt
  · exact ⟨d, b, by simp only [withFrames_asking, Prod.map, id]⟩
  dsimp only
  by_cases hs : stmt.isStructured = true
  · exact ⟨d, b, by simp only [if_pos hs, withFrames_asking, Prod.map, id]⟩
  simp only [if_neg hs, asking_store]
  rcases stmt.execute env m.store replay with _ | r
  · exact ⟨d, b, rfl⟩
  have hframes : ∀ frames, { m.asking d b with store := r.store }.withFrames frames =
      ({ m with store := r.store }.withFrames frames).asking d b :=
    fun frames => withFrames_asking { m with store := r.store } d b frames
  simp only [hframes]
  rcases r.result with i | effect
  · exact ⟨d, b, by simp only [interrupt_asking, Prod.map, id]⟩
  · exact apply_asking _ d b _ _

theorem runCondition_asking (u : CodeUnit) (place : StmtPath) (phase : ConditionPhase)
    (replay : List Value) (below : List Frame) :
    (m.asking d b).runCondition env u place phase replay below =
      Prod.map id (asking · d b) (m.runCondition env u place phase replay below) := by
  unfold runCondition
  rcases env.program.stmt? u place with _ | stmt
  · rfl
  cases stmt with
  | condition branches otherwise line =>
    cases phase with
    | branch => simp only [withFrames_asking, Prod.map, id]
    | test =>
      dsimp only
      refine settle_asking _ d b _ _ _ _ fun m chosen => ?_
      rcases chosen with _ | i
      · cases otherwise <;> exact m.withFrames_asking d b _
      · exact m.withFrames_asking d b _
  | _ => rfl

theorem runLoop_asking (u : CodeUnit) (place : StmtPath) (kind : LoopPhase → FrameKind)
    (phase : LoopPhase) (replay : List Value) (below : List Frame) :
    (m.asking d b).runLoop env u place kind phase replay below =
      Prod.map id (asking · d b) (m.runLoop env u place kind phase replay below) := by
  unfold runLoop
  cases phase with
  | body => simp only [withFrames_asking, Prod.map, id]
  | test =>
    rcases env.program.stmt? u place with _ | stmt
    · rfl
    cases stmt with
    | cycle test body line =>
      refine m.settle_asking d b _ _ _ _ fun m again => ?_
      cases again <;> exact m.withFrames_asking d b _
    | doCycle body test line =>
      refine m.settle_asking d b _ _ _ _ fun m again => ?_
      cases again <;> exact m.withFrames_asking d b _
    | _ => rfl

theorem runRetry_asking (u : CodeUnit) (place : StmtPath) (phase : RetryPhase)
    (attempt max : UInt32) (replay : List Value) (below : List Frame) :
    (m.asking d b).runRetry env u place phase attempt max replay below =
      Prod.map id (asking · d b) (m.runRetry env u place phase attempt max replay below) := by
  unfold runRetry
  rcases env.program.stmt? u place with _ | stmt
  · rfl
  cases stmt with
  | retry attempts body test line =>
    cases phase with
    | enter => exact m.settle_asking d b _ _ _ _ fun m n => m.withFrames_asking d b _
    | body => cases test <;> simp only [withFrames_asking, Prod.map, id]
    | test =>
      cases test with
      | none => simp only [withFrames_asking, Prod.map, id]
      | some test =>
        refine m.settle_asking d b _ _ _ _ fun m again => ?_
        by_cases hagain : (again && decide (attempt < max)) = true
        · simp only [if_pos hagain, withFrames_asking]
        · simp only [if_neg hagain, withFrames_asking]
  | _ => rfl

theorem heedCancel_asking :
    (m.asking d b).heedCancel env = (m.heedCancel env).map (asking · d b) := by
  have hcancelled : (m.asking d b).cancelled = m.cancelled := rfl
  simp only [heedCancel, asking_pending, asking_activations, asking_nextLine?, hcancelled,
    raise_asking]
  by_cases h : (m.pending.isNone && !m.activations.isEmpty && m.cancelled) = true
  · simp only [if_pos h]
    cases m.nextLine? env <;> rfl
  · simp only [if_neg h]
    rfl

/-- **A micro-step does not look at what the machine asks for.** What it shows is the same, and the
machines it leaves differ at most in what they ask. -/
theorem tick_asking (env : Setting σ) :
    ∃ d' b', (m.asking d b).tick env = Prod.map id (asking · d' b') (m.tick env) := by
  simp only [tick, heedCancel_asking]
  rcases m.heedCancel env with _ | m
  · exact ⟨d, b, rfl⟩
  simp only [Option.map_some, asking_pending, asking_activations]
  rcases m.pending with _ | failure
  · dsimp only
    rcases hm : m.activations with _ | ⟨act, callers⟩
    · exact ⟨d, b, rfl⟩
    dsimp only
    rcases act.frames with _ | ⟨frame, below⟩
    · dsimp only
      cases act.unit with
      | main => exact ⟨d, b, rfl⟩
      | function name => exact ⟨d, b, by simp only [returnFromFunction_asking, Prod.map, id]⟩
    · dsimp only
      cases frame.kind with
      | block path next => exact m.runBlock_asking d b _ _ _ _ _
      | condition place phase => exact ⟨d, b, m.runCondition_asking d b _ _ _ _ _⟩
      | cycle place phase => exact ⟨d, b, m.runLoop_asking d b _ _ _ _ _ _⟩
      | doCycle place phase => exact ⟨d, b, m.runLoop_asking d b _ _ _ _ _ _⟩
      | retry place phase attempt max => exact ⟨d, b, m.runRetry_asking d b _ _ _ _ _ _ _⟩
      | tryCatch place phase => exact ⟨d, b, by simp only [withFrames_asking, Prod.map, id]⟩
  -- a fault is pending: nothing of the script runs, and the search for a handler changes neither
  -- field
  · exact ⟨d, b, m.unwind_asking d b failure⟩

end

/-! ## Machines that ask for different things

`Alike` forgets which values the fields have. It is an equivalence that micro-steps and steps keep,
and it says nothing about the two fields, which is as it should be: the pauses of a session are made
of them. -/

/-- Two machines that differ at most in what they ask of their owner. It is said with `asking` and
not field by field, so the equations above apply to it as they stand, and a field that is added to
machines later is not forgotten here. -/
def Alike (m m' : Machine σ) : Prop := ∃ d b, m' = m.asking d b

namespace Alike

variable {m m' m'' : Machine σ}

theorem refl (m : Machine σ) : Alike m m := ⟨m.delay, m.suspended, rfl⟩

theorem symm (h : Alike m m') : Alike m' m := by
  obtain ⟨d, b, rfl⟩ := h
  exact ⟨m.delay, m.suspended, rfl⟩

theorem trans (h : Alike m m') (h' : Alike m' m'') : Alike m m'' := by
  obtain ⟨d, b, rfl⟩ := h
  obtain ⟨d', b', rfl⟩ := h'
  exact ⟨d', b', rfl⟩

theorem finished (h : Alike m m') : m'.finished = m.finished := by
  obtain ⟨d, b, rfl⟩ := h
  rfl

theorem exitStatus (h : Alike m m') : m'.exitStatus = m.exitStatus := by
  obtain ⟨d, b, rfl⟩ := h
  rfl

theorem withFinished (h : Alike m m') (finished : Bool) :
    Alike { m with finished } { m' with finished } := by
  obtain ⟨d, b, rfl⟩ := h
  exact ⟨d, b, rfl⟩

/-- The end of a run is noted from the activations, which alike machines share. So both are finished
behind a record, or neither is. -/
theorem settled (h : Alike m m') :
    Alike { m with finished := m.finished || m.activations.isEmpty }
      { m' with finished := m'.finished || m'.activations.isEmpty } := by
  obtain ⟨d, b, rfl⟩ := h
  exact ⟨d, b, rfl⟩

/-- **Alike machines show the same in a micro-step, and are alike behind it.** A delay or a
suspension in this micro-step is asked for by both; what was asked before may still differ. -/
theorem tick (h : Alike m m') (env : Setting σ) :
    (m'.tick env).1 = (m.tick env).1 ∧ Alike (m.tick env).2 (m'.tick env).2 := by
  obtain ⟨d, b, rfl⟩ := h
  obtain ⟨d', b', htick⟩ := m.tick_asking d b env
  rw [htick]
  exact ⟨rfl, d', b', rfl⟩

/-- Alike machines take the same number of micro-steps to the same answer. The induction is on the
fuel, since a step makes micro-steps as long as they show nothing. -/
theorem step (h : Alike m m') (env : Setting σ) (fuel : Nat) :
    (m'.step env fuel).1 = (m.step env fuel).1 ∧
      Alike (m.step env fuel).2 (m'.step env fuel).2 := by
  induction fuel generalizing m m' with
  | zero =>
    unfold Machine.step
    rw [h.finished]
    cases m.finished <;> exact ⟨rfl, h⟩
  | succ fuel ih =>
    unfold Machine.step
    rw [h.finished]
    cases m.finished with
    | true => exact ⟨rfl, h⟩
    | false =>
      obtain ⟨hsame, hbehind⟩ := h.tick env
      rcases htick : m.tick env with ⟨t, m₁⟩
      rcases htick' : m'.tick env with ⟨t', m₁'⟩
      rw [htick, htick'] at hsame hbehind
      -- the ticks are equal, so both steps take the same arm
      obtain rfl : t' = t := hsame
      cases t' with
      | running => exact ih hbehind
      | record r => exact ⟨rfl, hbehind.settled⟩
      | done => exact ⟨rfl, hbehind.withFinished true⟩
      | failed f => exact ⟨rfl, hbehind.withFinished true⟩
      | defect => exact ⟨rfl, hbehind⟩

end Alike

end Stepwise.Machine
