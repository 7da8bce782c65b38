import Stepwise.Proofs.Ending
import Stepwise.Proofs.Parameters

/-!
# Cancellation

A machine that is cancelled gets a fault that no handler takes, but only when no other fault is
pending. One that is (going up to a statement may have left it) looks for its handler first. The
handler is started and comes to nothing: before its block runs, the machine is cancelled. Only the
variable of a try statement is set by then, and if it is a constant, the fault that this makes looks
for a handler again. Each time it is one further out, so **the next step fails, and runs nothing**
(`cancelled_stops`).

What "runs nothing" means has to be said with some care, because micro-steps are made and variables
do change. `Halts` says it of a step as a whole: the host is not asked, its world and the warnings
are as they were, every micro-step but the last does nothing except start a handler (`Takes`), and
the last does nothing except fail (`GivesUp`). Three kinds of variables can differ afterwards: the
message of the last failure, the variables of handlers that were started, and parameters of
functions that were left. For the last kind it has to be known that a function puts aside nothing
but its parameters, which is an invariant of runs (`Reachable.putsBackParams`).

That the search for handlers comes to an end is proved by counting: a handler that was started takes
no fault itself, so each round has one less (`handlers_lt`). The claim is about one step of the
machine; how a whole call of a session ends is said in `Proofs/CancelledCalls`.
-/

namespace Stepwise

open Relation Activation

/-- The handler is that of a try statement with this variable. The line is that of the statement,
and it is the one that a fault about the variable shows. -/
def Caught.Binds (p : Program) (c : Caught) (name : String) (line : Line) : Prop :=
  ∃ place body handler, c.handler = .tryCatch place ∧
    p.stmt? c.activation.unit place = some (.tryCatch body (some name) handler line)

namespace Machine

variable {σ : Type} {env : Setting σ} {m m₁ m' : Machine σ} {s s' : Scope} {x : String}
  {acts callers : List Activation} {act : Activation} {c : Caught} {failure : Failure} {line : Line}

/-! ## Functions that are left on the way

The search for a handler goes outwards from unit to unit and puts back the parameters of each
function it leaves. `Unwinds` and `Leaves` are the steps of that search (`Proofs/Parameters`). -/

/-- A function that is left in the search for a handler. The search comes to it with some scope, and
leaves it by putting back what its parameters shadowed. -/
def Unwound (s : Scope) (acts : List Activation) (act : Activation) : Prop :=
  ∃ s' callers, Unwinds (s, acts) (s', act :: callers) ∧
    Leaves (s', act :: callers) (s'.restoreAll act.saved, callers)

/-- The scope that the search for a handler ends with, whether it has found one or not. -/
def caughtScope : Except Scope Caught → Scope
  | .error s => s
  | .ok c => c.scope

/-- The search for a handler changes a variable only by leaving a function that has it put aside.
The induction is on the units, innermost first: either this function changed the variable, or
leaving it did not and one further out did. -/
theorem unwound_of_changed (changed : (caughtScope (findCaught s acts)).get? x ≠ s.get? x) :
    ∃ act, Unwound s acts act ∧ x ∈ act.saved.map Prod.fst := by
  induction acts generalizing s with
  | nil => exact absurd rfl changed
  | cons act callers ih =>
    rcases hfind : Frame.findInStacks (act.frames :: act.subroutines)
      with _ | ⟨handler, frames, older⟩
    · cases hunit : act.unit with
      | main =>
        simp only [findCaught, hfind, hunit] at changed
        exact absurd rfl changed
      | function name =>
        have hleaves : Leaves (s, act :: callers) (s.restoreAll act.saved, callers) :=
          .leave hfind hunit
        simp only [findCaught, hfind, hunit] at changed
        -- is it this function that puts the variable back, or one further out?
        by_cases hhere : (s.restoreAll act.saved).get? x = s.get? x
        · rw [← hhere] at changed
          obtain ⟨act', ⟨s', older, hunwinds, hleft⟩, hx⟩ := ih changed
          exact ⟨act', ⟨s', older, .head hleaves hunwinds, hleft⟩, hx⟩
        · refine ⟨act, ⟨s, callers, .refl, hleaves⟩, ?_⟩
          by_cases hx : x ∈ act.saved.map Prod.fst
          · exact hx
          · refine absurd (Scope.get?_restoreAll_of_ne ?_) hhere
            rintro entry hentry rfl
            exact hx (List.mem_map_of_mem hentry)
    · simp only [findCaught, hfind] at changed
      exact absurd rfl changed

theorem Unwinds.suffix {p q : Scope × List Activation} (h : Unwinds p q) : q.2 <:+ p.2 := by
  unfold Unwinds at h
  induction h with
  | refl => exact List.suffix_rfl
  | tail _ hleaves ih =>
    cases hleaves with
    | leave => exact (List.suffix_cons _ _).trans ih

theorem Unwound.mem (h : Unwound s acts act) : act ∈ acts := by
  obtain ⟨s', callers, hunwinds, -⟩ := h
  exact hunwinds.suffix.subset List.mem_cons_self

theorem Unwound.function (h : Unwound s acts act) : ∃ name, act.unit = .function name := by
  obtain ⟨s', callers, -, hleaves⟩ := h
  cases hleaves with
  | leave nothing function => exact ⟨_, function⟩

/-! ## What is put aside belongs to parameters -/

/-- A function has only its parameters put aside. Nothing is said of the main unit, which puts
nothing aside. -/
def PutsBackParams (p : Program) (act : Activation) : Prop :=
  ∀ name, act.unit = .function name →
    ∃ d, p.function? name = some d ∧ ∀ n ∈ act.saved.map Prod.fst, n ∈ d.params

/-- What is put aside belongs to parameters that are being bound, or was put aside before. The
second case is for the induction, which goes through the parameters with those before them in
`acc`. -/
theorem bindParams_names {params : List (String × Value)}
    {acc saved : List (String × Option Value)} (h : bindParams s acc params = (.ok saved, s'))
    {n : String} (hn : n ∈ saved.map Prod.fst) :
    n ∈ params.map Prod.fst ∨ n ∈ acc.map Prod.fst := by
  induction params generalizing s acc with
  | nil =>
    cases h
    exact .inr hn
  | cons pair rest ih =>
    obtain ⟨param, arg⟩ := pair
    unfold bindParams at h
    dsimp only at h
    split at h
    · cases h
    · have hrest := ih h
      simp only [List.map_cons, List.mem_cons] at hrest ⊢
      obtain hrest | hparam | hacc := hrest
      · exact .inl (.inr hrest)
      · exact .inl (.inl hparam)
      · exact .inr hacc

theorem PutsBackParams.alters {p : Program} {act' : Activation} (h : PutsBackParams p act)
    (alters : act.Alters act') : PutsBackParams p act' := by
  intro name hunit
  rw [alters.saved]
  exact h name (alters.unit ▸ hunit)

/-- A micro-step keeps this. A unit comes new only by a call, which has just bound its parameters,
and all other units keep what they have put aside. -/
theorem putsBackParams_tick (h : ∀ act ∈ m.activations, PutsBackParams env.program act) :
    ∀ act ∈ (m.tick env).2.activations, PutsBackParams env.program act := by
  intro act hact
  by_cases hpushed : m.activations.length < (m.tick env).2.activations.length
  · obtain ⟨m₁, line, name, args, d, saved, ⟨-, -, replay, hframes⟩, enters⟩ :=
      enters_of_length_lt hpushed
    rw [enters.activations] at hact
    rcases List.mem_cons.mp hact with rfl | hact
    · -- the function that was entered has put aside what its parameters shadow
      rintro _ ⟨⟩
      obtain ⟨s, hbind⟩ := enters.bound
      refine ⟨d, enters.known, ?_⟩
      intro n hn
      obtain hparam | hacc := bindParams_names hbind hn
      · rwa [List.map_fst_zip (Nat.le_of_eq enters.fits)] at hparam
      · cases hacc
    -- the caller has kept a result at most, and the units under it are the same
    · rw [hframes] at hact
      rcases hacts : m.activations with _ | ⟨top, callers⟩
      · rw [hacts] at hact
        cases hact
      · obtain ⟨top', hmap, halters⟩ := mapFrame_cons (fun f => { f with replay }) top callers
        rw [hacts, hmap] at hact
        rw [hacts] at h
        rcases List.mem_cons.mp hact with rfl | hact
        · exact (h top List.mem_cons_self).alters halters
        · exact h act (List.mem_cons_of_mem _ hact)
  -- no unit is new, so all but the one in front are as before, and that one is of the same call
  · obtain hnone | ⟨inner, old, act', callers, hacts, hacts', halters⟩ |
      ⟨name, shadowed, old, act', callers, hacts, hacts', -⟩ := (tick_moved env m).moves.front
    · rw [hnone] at hact
      cases hact
    · rw [hacts'] at hact
      rw [hacts] at h
      rcases List.mem_cons.mp hact with rfl | hact
      · exact (h old (by simp)).alters halters
      · exact h act (by simp [hact])
    · simp [hacts, hacts'] at hpushed

theorem Reachable.putsBackParams (h : Reachable env m) :
    ∀ act ∈ m.activations, PutsBackParams env.program act := by
  induction h using Reachable.run_induction with
  | new =>
    intro act hact
    obtain rfl := List.mem_singleton.mp hact
    rintro name ⟨⟩
  | act _ hact ih =>
    obtain hsame | rfl := hact.cases_activations
    · rw [hsame]
      exact ih
    · exact putsBackParams_tick ih

/-! ## Handlers -/

/-- The frames that can take a fault, counted over all stacks of all units. This is the measure by
which the search for handlers comes to its end. -/
def handlers (acts : List Activation) : Nat :=
  (acts.flatMap fun act => (act.frames :: act.subroutines).flatten).countP fun f =>
    f.handler?.isSome

/-- The handler of a try statement takes no fault itself, so there is one less behind it. What lies
above the frame is dropped as well, so there may be many less. A retry would be another matter: its
body runs again and can catch again. But no fault comes of starting one. -/
theorem handlers_lt {place : StmtPath} (found : findCaught s acts = .ok c)
    (htry : c.handler = .tryCatch place) :
    handlers
      ({ c.activation with frames := c.handler.frames ++ c.activation.frames } :: c.callers) <
      handlers acts := by
  obtain ⟨inner, act, newer, above, f, hacts, hstacks, hf, -⟩ := findCaught_ok found
  have hframes : c.handler.frames.countP (fun f => f.handler?.isSome) = 0 := by
    rw [htry]
    rfl
  have hhandler : f.handler?.isSome = true := by simp [hf]
  have hstack : act.frames ++ act.subroutines.flatten =
      newer.flatten ++
        (above ++ f :: (c.activation.frames ++ c.activation.subroutines.flatten)) := by
    rw [← List.flatten_cons, hstacks]
    simp
  simp only [handlers, hacts, List.flatMap_append, List.flatMap_cons, List.flatten_cons, hstack,
    List.countP_append, List.countP_cons, hframes, hhandler, if_true]
  omega

/-- What is left of a machine when a handler has started: no fault is pending, or the variable of
its try statement is a constant. -/
structure Started (env : Setting σ) (m : Machine σ) (c : Caught) (m₁ : Machine σ) : Prop where
  cancelled : m₁.cancelled = m.cancelled
  finished : m₁.finished = m.finished
  world : m₁.store.world = m.store.world
  warnings : m₁.store.warnings = m.store.warnings
  activations : m₁.activations =
    { c.activation with frames := c.handler.frames ++ c.activation.frames } :: c.callers
  pending : m₁.pending = none ∨ ∃ name line, c.Binds env.program name line ∧
    m₁.pending = some ⟨line, .assignToConstant name⟩
  scope : ∀ x, m₁.scope.get? x ≠ c.scope.get? x →
    x = Scope.exceptionMessage ∨ ∃ line, c.Binds env.program x line

/-- The cases are those of `handle`: a retry and a try statement without a variable change nothing
but the frames, and the variable of a try statement is set or is a constant. -/
theorem handle_started (h : m.handle env failure c = some m₁) : Started env m c m₁ := by
  -- the activations are those of every handler, so the cases need not look at them
  have hacts : m₁.activations =
      { c.activation with frames := c.handler.frames ++ c.activation.frames } :: c.callers := by
    obtain ⟨m₂, hhandle, hacts⟩ | ⟨hhandle, -⟩ := handle_cases env m failure c
    · rw [hhandle] at h
      cases h
      exact hacts
    · rw [hhandle] at h
      cases h
  have same : ∀ x, c.scope.get? x ≠ c.scope.get? x →
      x = Scope.exceptionMessage ∨ ∃ line, c.Binds env.program x line :=
    fun x hne => absurd rfl hne
  unfold handle at h
  dsimp only at h
  cases hhandler : c.handler with
  | retry place attempt max =>
    rw [hhandler] at h
    cases h
    exact ⟨rfl, rfl, rfl, rfl, hacts, .inl rfl, same⟩
  | tryCatch place =>
    rw [hhandler] at h
    dsimp only at h
    split at h
    · rename_i body catchVar handler line hstmt
      cases catchVar with
      | none =>
        cases h
        exact ⟨rfl, rfl, rfl, rfl, hacts, .inl rfl, same⟩
      | some name =>
        have binds : c.Binds env.program name line := ⟨place, body, handler, hhandler, hstmt⟩
        dsimp only at h
        split at h
        -- the variable was set, and nothing else changed
        · rename_i scope hset
          cases h
          refine ⟨rfl, rfl, rfl, rfl, hacts, .inl rfl, ?_⟩
          intro x hne
          have hscope : c.scope.set name failure.fault.payload = .ok scope := hset
          unfold Scope.set at hscope
          split at hscope
          · cases hscope
          cases hscope
          right
          by_cases hx : name = x
          · exact ⟨line, hx ▸ binds⟩
          · refine absurd ?_ hne
            show (c.scope.force name _).get? x = _
            rw [Scope.get?_force, if_neg hx]
        -- the variable is a constant: only the message of the last failure changes, by the new
        -- fault
        · rename_i fault hset
          cases h
          have hscope : c.scope.set name failure.fault.payload = .error fault := hset
          obtain rfl : fault = .assignToConstant name := by
            unfold Scope.set at hscope
            split at hscope <;> cases hscope
            rfl
          refine ⟨rfl, rfl, rfl, rfl, hacts, .inr ⟨name, line, binds, rfl⟩, ?_⟩
          intro x hne
          left
          by_cases hx : Scope.exceptionMessage = x
          · exact hx.symm
          · refine absurd ?_ hne
            show (c.scope.noteFailure _).get? x = _
            rw [Scope.noteFailure, Scope.get?_force, if_neg hx]
    · cases h

/-! ## The step of a cancelled machine -/

/-- A micro-step that does nothing but to start the handler of the fault that is pending. Behind it
nothing is pending, or the fault about the variable of that handler. -/
structure Takes (env : Setting σ) (m : Machine σ) (c : Caught) : Prop where
  unwinds : ∃ failure, m.pending = some failure ∧ m.tick env = m.unwind env failure
  running : (m.tick env).1 = .running
  found : findCaught m.scope m.activations = .ok c
  after : (m.tick env).2.pending = none ∨ ∃ name line, c.Binds env.program name line ∧
    (m.tick env).2.pending = some ⟨line, .assignToConstant name⟩

/-- A micro-step that does nothing but to fail. The run ends with the cancellation, or with a fault
that was pending and that no handler takes. -/
inductive GivesUp (env : Setting σ) (m : Machine σ) (failure : Failure) : Prop where
  | heeded (calm : m.pending = none) (fault : failure.fault = .cancelled)
      (line : m.nextLine? env = some failure.line)
      (fails : m.tick env = (.failed failure,
        { m.raise failure.line .cancelled with activations := [], pending := none }))
  /-- The fault that was pending has no handler, or is the one that no handler takes. -/
  | unhandled (pending : m.pending = some failure) (unwinds : m.tick env = m.unwind env failure)
      (fails : (m.tick env).1 = .failed failure)
      (nothing : failure.fault = .cancelled ∨ ∃ s, findCaught m.scope m.activations = .error s)

/-- A step that looks for handlers and fails: `n` of its micro-steps start a handler each, and the
one behind them fails. Nothing is asked of the host, so it does not matter which it is; `fails`
states this by putting any other host in its place. -/
structure Halts (env : Setting σ) (m : Machine σ) (n : Nat) (failure : Failure)
    (m' : Machine σ) : Prop where
  fails : ∀ host : Host σ, StepsTo { env with host } m (.failed failure) m'
  finished : m'.finished = true
  nothing : m'.activations = []
  world : m'.store.world = m.store.world
  warnings : m'.store.warnings = m.store.warnings
  takes : ∀ i, i < n → ∃ c, Takes env (m.ticks env i) c
  last : GivesUp env (m.ticks env n) failure
  scope : ∀ x, m'.scope.get? x ≠ m.scope.get? x → x = Scope.exceptionMessage ∨
    (∃ i c line, i < n ∧ Takes env (m.ticks env i) c ∧ c.Binds env.program x line) ∨
    ∃ i act, i ≤ n ∧ Unwound (m.ticks env i).scope (m.ticks env i).activations act ∧
      x ∈ act.saved.map Prod.fst

/-- A machine that is cancelled while it is going. That its positions lead somewhere is what makes
the cancellation find a line to fail on. -/
structure Doomed (env : Setting σ) (m : Machine σ) : Prop where
  going : m.finished = false
  cancelled : m.cancelled = true
  placed : AllPlaced env.program m.activations
  units : m.activations ≠ []

theorem Doomed.started (h : Doomed env m) (found : findCaught m.scope m.activations = .ok c)
    (started : Started env m c m₁) : Doomed env m₁ := by
  refine ⟨started.finished.trans h.going, started.cancelled.trans h.cancelled, ?_, ?_⟩
  · rw [started.activations]
    exact placed_caught found h.placed
  · simp [started.activations]

/-- With nothing pending the cancellation is heeded at once, by a single micro-step. There is a line
to fail on, because a machine that is not finished has a unit, and its position is right. -/
theorem Doomed.heeds (h : Doomed env m) (linked : env.program.Linked) (calm : m.pending = none) :
    ∃ line m', Halts env m 0 ⟨line, .cancelled⟩ m' := by
  obtain ⟨line, hline⟩ := nextLine?_of_placed linked h.placed
  have hheed : ∀ host : Host σ, m.heedCancel { env with host } =
      some (m.raise line .cancelled) := by
    intro host
    have hnext : m.nextLine? { env with host } = some line := hline
    simp [heedCancel, calm, h.units, h.cancelled, hnext]
  have htick : ∀ host : Host σ, m.tick { env with host } = _ :=
    fun host => tick_cancelled (hheed host)
  refine ⟨line, _, fun host => .failed h.going (htick host), rfl, rfl, ?_, ?_,
    fun i hi => absurd hi (Nat.not_lt_zero i), .heeded calm rfl hline (htick env.host), ?_⟩
  · show (m.raise line .cancelled).store.world = _
    unfold raise mapFrame mapTop
    split <;> rfl
  · show (m.raise line .cancelled).store.warnings = _
    unfold raise mapFrame mapTop
    split <;> rfl
  · intro x hne
    left
    by_cases hx : Scope.exceptionMessage = x
    · exact hx.symm
    · refine absurd ?_ hne
      show (m.raise line .cancelled).scope.get? x = _
      rw [scope_raise, Scope.noteFailure, Scope.get?_force, if_neg hx]

/-- A fault that is pending and has no handler ends the run with the scope that the search came to.
The fault that no handler takes ends it with the scope as it is, since then there is no search. -/
theorem Doomed.gives (h : Doomed env m) (pending : m.pending = some failure)
    (hscope : s = m.scope ∨ s = caughtScope (findCaught m.scope m.activations))
    (nothing : failure.fault = .cancelled ∨ ∃ s, findCaught m.scope m.activations = .error s)
    (hunwind : ∀ host : Host σ, m.unwind { env with host } failure =
      (.failed failure, { m.withScope s with activations := [], pending := none })) :
    ∃ m', Halts env m 0 failure m' := by
  have htick : ∀ host : Host σ, m.tick { env with host } =
      (.failed failure, { m.withScope s with activations := [], pending := none }) := fun host =>
    (tick_pending pending).trans (hunwind host)
  refine ⟨_, fun host => .failed h.going (htick host), rfl, rfl, rfl, rfl,
    fun i hi => absurd hi (Nat.not_lt_zero i),
    .unhandled pending (tick_pending pending) (congrArg Prod.fst (htick env.host)) nothing, ?_⟩
  intro x hne
  have hne : s.get? x ≠ m.scope.get? x := hne
  rcases hscope with rfl | rfl
  · exact absurd rfl hne
  · obtain ⟨act, hunwound, hx⟩ := unwound_of_changed hne
    exact .inr (.inr ⟨0, act, Nat.le_refl 0, hunwound, hx⟩)

/-- A handler that was started is one micro-step more. What the rest of the step is known to change
is put together with what starting the handler changed; the machines of the rest are counted from
one further on. -/
theorem Halts.taken {n : Nat} (h : Halts env m₁ n failure m') (going : m.finished = false)
    (started : Started env m c m₁) (takes : Takes env m c)
    (htick : ∀ host : Host σ, m.tick { env with host } = (.running, m₁)) :
    Halts env m (n + 1) failure m' := by
  have hticks : ∀ i, m.ticks env (i + 1) = m₁.ticks env i := by
    intro i
    show (m.tick env).2.ticks env i = _
    rw [show m.tick env = (.running, m₁) from htick env.host]
  refine ⟨fun host => .running going (htick host) (h.fails host), h.finished, h.nothing,
    h.world.trans started.world, h.warnings.trans started.warnings, ?_, ?_, ?_⟩
  · intro i hi
    cases i with
    | zero => exact ⟨c, takes⟩
    | succ i =>
      rw [hticks]
      exact h.takes i (by omega)
  · rw [hticks]
    exact h.last
  · intro x hne
    by_cases hlater : m'.scope.get? x = m₁.scope.get? x
    · -- it was changed on the way to the handler, or by starting it
      rw [hlater] at hne
      by_cases hhere : m₁.scope.get? x = c.scope.get? x
      · have hfound : c.scope = caughtScope (findCaught m.scope m.activations) := by
          rw [takes.found]
          rfl
        rw [hhere, hfound] at hne
        obtain ⟨act, hunwound, hx⟩ := unwound_of_changed hne
        exact .inr (.inr ⟨0, act, by omega, hunwound, hx⟩)
      · obtain hmessage | ⟨line, hbinds⟩ := started.scope x hhere
        · exact .inl hmessage
        · exact .inr (.inl ⟨0, c, line, by omega, takes, hbinds⟩)
    -- it was changed later, and the machine that did it is one further on
    · obtain hmessage | ⟨i, c', line, hi, htakes, hbinds⟩ | ⟨i, act, hi, hunwound, hx⟩ :=
        h.scope x hlater
      · exact .inl hmessage
      · exact .inr (.inl ⟨i + 1, c', line, by omega, (hticks i).symm ▸ htakes, hbinds⟩)
      · exact .inr (.inr ⟨i + 1, act, by omega, (hticks i).symm ▸ hunwound, hx⟩)

/-- **A machine that is cancelled fails in its next step.** Whatever is pending, the step looks for
a handler at most once for each of those there are, and then fails. -/
theorem Doomed.halts (h : Doomed env m) (linked : env.program.Linked) :
    ∃ n failure m', Halts env m n failure m' := by
  -- each handler that takes a fault and leaves one is gone, so there are fewer the next time
  induction hcount : handlers m.activations using Nat.strongRecOn generalizing m with
  | ind count ih =>
    subst hcount
    rcases hpending : m.pending with _ | failure
    · obtain ⟨line, m', hhalts⟩ := h.heeds linked hpending
      exact ⟨0, _, m', hhalts⟩
    by_cases hterminal : failure.fault.isTerminal = true
    · have hfault : failure.fault = .cancelled := by
        cases hf : failure.fault with
        | cancelled => rfl
        | _ => simp [hf, Fault.isTerminal] at hterminal
      have hunwind : ∀ host : Host σ, m.unwind { env with host } failure =
          (.failed failure, { m.withScope m.scope with activations := [], pending := none }) := by
        intro host
        rw [unwind, if_pos hterminal]
        rfl
      obtain ⟨m', hhalts⟩ := h.gives hpending (.inl rfl) (.inl hfault) hunwind
      exact ⟨0, failure, m', hhalts⟩
    rcases hfind : findCaught m.scope m.activations with s | c
    · have hunwind : ∀ host : Host σ, m.unwind { env with host } failure =
          (.failed failure, { m.withScope s with activations := [], pending := none }) := by
        intro host
        rw [unwind, if_neg hterminal, hfind]
      obtain ⟨m', hhalts⟩ :=
        h.gives hpending (.inr (by rw [hfind]; rfl)) (.inr ⟨s, hfind⟩) hunwind
      exact ⟨0, failure, m', hhalts⟩
    rcases hhandle : m.handle env failure c with _ | m₁
    · -- a handler that is none would be a defect
      refine absurd ?_ (tick_ne_defect linked h.placed)
      rw [tick_pending hpending, unwind, if_neg hterminal, hfind]
      simp only [hhandle]
    have started := handle_started hhandle
    have htick : ∀ host : Host σ, m.tick { env with host } = (.running, m₁) := by
      intro host
      have hhandle' : m.handle { env with host } failure c = some m₁ := hhandle
      rw [tick_pending hpending, unwind, if_neg hterminal, hfind]
      simp only [hhandle']
    have htick' : m.tick env = (.running, m₁) := htick env.host
    have takes : Takes env m c :=
      ⟨⟨failure, hpending, tick_pending hpending⟩, by rw [htick'],
        hfind, by rw [htick']; exact started.pending⟩
    have doomed := h.started hfind started
    have hnext : ∃ n failure m', Halts env m₁ n failure m' := by
      obtain hcalm | ⟨name, line, ⟨place, -, -, htry, -⟩, -⟩ := started.pending
      · obtain ⟨line, m', hhalts⟩ := doomed.heeds linked hcalm
        exact ⟨0, _, m', hhalts⟩
      · refine ih _ ?_ doomed rfl
        rw [started.activations]
        exact handlers_lt hfind htry
    obtain ⟨n, failure', m', hhalts⟩ := hnext
    exact ⟨n + 1, failure', m', hhalts.taken h.going started takes htick⟩

/-- The fault that such a step fails with, if it is not the cancellation: it was pending from the
start, or it is about the variable of a handler that was started, and no handler takes it. Whatever
was caught on the way is lost, so no other fault can come to the end. -/
theorem Halts.cause {n : Nat} (h : Halts env m n failure m') : failure.fault = .cancelled ∨
    ((n = 0 ∧ m.pending = some failure) ∨ ∃ i c name, n = i + 1 ∧
      Takes env (m.ticks env i) c ∧ c.Binds env.program name failure.line ∧
        failure.fault = .assignToConstant name) ∧
    ∃ s, findCaught (m.ticks env n).scope (m.ticks env n).activations = .error s := by
  cases h.last with
  | heeded calm fault => exact .inl fault
  | unhandled pending unwinds fails nothing =>
    obtain hcancelled | hnothing := nothing
    · exact .inl hcancelled
    refine .inr ⟨?_, hnothing⟩
    cases n with
    | zero => exact .inl ⟨rfl, pending⟩
    | succ i =>
      obtain ⟨c, takes⟩ := h.takes i (by omega)
      rw [ticks_succ] at pending
      obtain hnone | ⟨name, line, binds, hraised⟩ := takes.after
      · rw [hnone] at pending
        cases pending
      · rw [hraised] at pending
        cases pending
        exact .inr ⟨i, c, name, rfl, takes, binds, rfl⟩

/-- **Nothing runs behind a cancellation.** Take a machine that has come from its start by any
calls, is not finished, and is cancelled. Its next step fails, whatever the host is, and leaves it
finished with the host's world as it was. All micro-steps of the step but the last start a handler
of the fault that is pending, which none of them runs, and the last one fails.

The step fails with the cancellation, unless a fault was pending that no handler takes: the one that
was pending before, or the one that the variable of a handler is a constant. The only variables that
change are the message of the last failure, variables of the handlers that were started, and
parameters of the functions that the faults have left. -/
theorem cancelled_stops {script : Block} (hprogram : env.program = Program.link script)
    {scope : Scope} {world : σ} {answers : List Step}
    (uses : Uses env (Machine.new scope world) answers m) (going : m.finished = false)
    (cancelled : m.cancelled = true) :
    ∃ n failure m', Halts env m n failure m' ∧
      (failure.fault = .cancelled ∨
        ((n = 0 ∧ m.pending = some failure) ∨ ∃ i c name, n = i + 1 ∧
          Takes env (m.ticks env i) c ∧ c.Binds env.program name failure.line ∧
            failure.fault = .assignToConstant name) ∧
        ∃ s, findCaught (m.ticks env n).scope (m.ticks env n).activations = .error s) ∧
      ∀ x, m'.scope.get? x ≠ m.scope.get? x → x = Scope.exceptionMessage ∨
        (∃ i c line, i < n ∧ Takes env (m.ticks env i) c ∧ c.Binds env.program x line) ∨
        ∃ i act name d, i ≤ n ∧
          Unwound (m.ticks env i).scope (m.ticks env i).activations act ∧
            act.unit = .function name ∧ env.program.function? name = some d ∧
              x ∈ d.params := by
  have linked : env.program.Linked := hprogram ▸ Program.linked_link script
  -- a machine that is not finished has a unit, so there is a line that the fault can be given
  have units : m.activations ≠ [] := by
    cases uses.standing (standing_new scope world) with
    | going _ rooted => exact rooted.ne_nil
    | ended finished =>
      rw [going] at finished
      cases finished
  have doomed : Doomed env m := ⟨going, cancelled, uses.reachable.placed, units⟩
  obtain ⟨n, failure, m', hhalts⟩ := doomed.halts linked
  refine ⟨n, failure, m', hhalts, hhalts.cause, ?_⟩
  intro x hne
  obtain hmessage | hbound | ⟨i, act, hi, hunwound, hx⟩ := hhalts.scope x hne
  · exact .inl hmessage
  · exact .inr (.inl hbound)
  · -- what such a function has put aside is for its parameters
    have hparams := (uses.reachable.ticks i).putsBackParams act hunwound.mem
    obtain ⟨name, hunit⟩ := hunwound.function
    obtain ⟨d, hd, hsaved⟩ := hparams name hunit
    exact .inr (.inr ⟨i, act, name, d, hi, hunwound, hunit, hd, hsaved x hx⟩)

/-- The code of the failure that a step comes back with. -/
def failureCode? : Step → Option String
  | .failed f => some f.fault.code
  | _ => none

/-- The test of a condition calls a function that fails in a test of its own. Around it is a try
statement with a variable, and around that one without. -/
def smothered : Block :=
  .mk
    [.function "f" ["p"] (.mk [.condition [.mk (.var "missing" 2) (.mk [] 2 3)] none 2] 1 4) 1,
      .tryCatch
        (.mk
          [.tryCatch
            (.mk [.condition [.mk (.call "f" [.null 7] 7) (.mk [.noop 8] 7 9)] none 7] 6 10)
            (some "e") (.mk [.noop 11] 10 12) 6]
          5 13)
        none (.mk [.noop 14] 13 15) 5]
    0 16

/-- Going up to the next statement leaves the fault of the function pending. The variable is a
constant, so two handlers are started and come to nothing before the step fails. -/
theorem cancelled_stops_smothered :
    let env : Setting Unit := ⟨Program.link smothered, .default, .null ""⟩
    let start : Machine Unit := Machine.new ⟨[("e", .null)], ["e"], []⟩ ()
    let m := (((start.step env 9).2.advance env (fun _ => false) 9).2).cancel
    m.finished = false ∧ m.cancelled = true ∧ m.activations.length = 2 ∧
    (m.ticks env 0).pending.isSome = true ∧ (m.ticks env 1).pending.isSome = true ∧
    failureCode? (m.step env 9).1 = some "Cancelled" ∧
    ∃ n failure m', Halts env m n failure m' ∧
      ∀ x, m'.scope.get? x ≠ m.scope.get? x → x = Scope.exceptionMessage ∨
        (∃ i c line, i < n ∧ Takes env (m.ticks env i) c ∧ c.Binds env.program x line) ∨
        ∃ i act name d, i ≤ n ∧
          Unwound (m.ticks env i).scope (m.ticks env i).activations act ∧
          act.unit = .function name ∧ env.program.function? name = some d ∧ x ∈ d.params := by
  intro env start m
  have hgoing : m.finished = false := by decide +kernel
  have hcancelled : m.cancelled = true := by decide +kernel
  have hunits : m.activations.length = 2 := by decide +kernel
  have hfirst : (m.ticks env 0).pending.isSome = true := by decide +kernel
  have hsecond : (m.ticks env 1).pending.isSome = true := by decide +kernel
  have hcode : failureCode? (m.step env 9).1 = some "Cancelled" := by decide +kernel
  have hshown : (start.step env 9).1.record?.isSome = true := by decide +kernel
  have hstopped : ((start.step env 9).2.advance env (fun _ => false) 9).1 = .stopped := by
    decide +kernel
  obtain ⟨r, hr⟩ := Option.isSome_iff_exists.mp hshown
  have uses : Uses env start [.record r] m :=
    .cons (.of_record hr) (.cons (.of_stopped hstopped) (.cons (.handled .cancel) (.nil m)))
  have hprogram : env.program = Program.link smothered := rfl
  -- from here on only these facts count, not how the machine has come there
  clear_value m env
  obtain ⟨n, failure, m', hhalts, -, hscope⟩ := cancelled_stops hprogram uses hgoing hcancelled
  exact ⟨hgoing, hcancelled, hunits, hfirst, hsecond, hcode, n, failure, m', hhalts, hscope⟩

end Machine

end Stepwise
