import Stepwise.Proofs.Evaluating
import Stepwise.Proofs.Placement

/-!
# What becomes of replay lists

Only the frame in front has results of calls on its list, and those of callers that wait.
`tick_replays` is what a micro-step makes of the lists: an evaluation stops for a function, and its
caller waits with a result for each call before; a function returns, and its value goes on the list
of its caller; or an evaluation is over, and all lists of its unit are empty.

`Moves` says nothing of this, since lists may be anything there. The cases are the same, but here
each carries what the lists are afterwards, and a stop carries which function it was for (`Stops`,
from `Proofs/Evaluating`). That a frame which evaluates nothing has an empty list is a premise of
the theorem and not a result: it holds because every call was made by an evaluation, which is for
`Proofs/Provenance` to know. So is that there is no defect.

`Proofs/OrderedRuns` uses that new frames have empty lists.
-/

namespace Stepwise

/-! ## Lists of stacks -/

/-- No frame has results of calls. Frames that are made anew are so, by whatever they are made:
entering a statement, starting a block, jumping, or starting a handler. -/
def Frame.Clean (frames : List Frame) : Prop := ∀ f ∈ frames, f.replay = []

namespace Frame.Clean

theorem nil : Clean [] := nofun

theorem cons_iff {f : Frame} {frames : List Frame} :
    Clean (f :: frames) ↔ f.replay = [] ∧ Clean frames := List.forall_mem_cons

theorem append {above below : List Frame} (h : Clean above) (h' : Clean below) :
    Clean (above ++ below) := List.forall_mem_append.mpr ⟨h, h'⟩

theorem new (kind : FrameKind) {below : List Frame} (h : Clean below) :
    Clean (Frame.new kind :: below) :=
  cons_iff.mpr ⟨rfl, h⟩

theorem enter (stmt : Stmt) (place : StmtPath) : Clean (Frame.enter stmt place) := by
  unfold Frame.enter
  split
  case h_5 | h_7 => exact .new _ (.new _ .nil)
  case h_8 => exact .nil
  all_goals exact .new _ .nil

theorem around (stmt : Stmt) (place : StmtPath) (sel : BlockSel) :
    Clean (Frame.around stmt place sel) := by
  unfold Frame.around
  split
  case h_7 => exact .nil
  all_goals exact .new _ .nil

theorem handler (h : Handler) : Clean h.frames := by
  cases h <;> exact .new _ (.new _ .nil)

theorem descend {b : Block} {path rest : BlockPath} {next : Nat} {below frames : List Frame}
    (hbelow : Clean below) (h : Frame.descend b path next below rest = some frames) :
    Clean frames := by
  induction rest generalizing b path below with
  | nil =>
    cases h
    exact .new _ hbelow
  | cons turn rest ih =>
    obtain ⟨index, sel⟩ := turn
    obtain ⟨c, hc⟩ := follow?_of_descend h
    obtain ⟨stmt, child, hstmt, hchild, -⟩ := Block.follow?_cons_eq_some.mp hc
    rw [descend_cons hstmt hchild] at h
    exact ih ((around stmt _ sel).append (.new _ hbelow)) h

theorem resume {root : Block} {target : StmtPath} {frames : List Frame}
    (h : Frame.resume root target = some frames) : Clean frames :=
  descend .nil h

end Frame.Clean

namespace Activation

/-- No stack of the activation has results of calls. -/
structure Idle (act : Activation) : Prop where
  frames : Frame.Clean act.frames
  aside : ∀ stack ∈ act.subroutines, Frame.Clean stack

/-- Only the frame in front has them. It is the invariant that the micro-step below is shown to
keep. -/
structure Behind (act : Activation) : Prop where
  below : Frame.Clean act.frames.tail
  aside : ∀ stack ∈ act.subroutines, Frame.Clean stack

/-- The list of the frame in front. -/
def replay (act : Activation) : List Value :=
  match act.frames with
  | [] => []
  | f :: _ => f.replay

/-- What the frame in front evaluates. -/
def evaluation (p : Program) (act : Activation) : Evaluation :=
  match act.frames with
  | [] => .nothing
  | f :: _ => f.kind.evaluation p act.unit

namespace Idle

variable {act : Activation}

theorem new (u : CodeUnit) (saved : List (String × Option Value)) :
    (Activation.new u saved).Idle :=
  ⟨.new _ .nil, nofun⟩

theorem behind (h : act.Idle) : act.Behind :=
  ⟨fun f hf => h.frames f (List.mem_of_mem_tail hf), h.aside⟩

theorem replay (h : act.Idle) : act.replay = [] := by
  unfold Activation.replay
  split
  · rfl
  · rename_i f below hframes
    exact h.frames f (hframes ▸ List.mem_cons_self)

end Idle

end Activation

/-! ## Statements that are done -/

/-- The value that a statement hands to the caller of its function, if it is one that returns. -/
def Effect.yields? : Effect → Option Value
  | .ret v => some (v.getD .null)
  | _ => none

/-- The unit in front has no results any more, or is left. A function that is left hands on the
value that its last statement yields. The value is given from outside, so that it is not read off
the list it goes to. -/
inductive Settles (u : CodeUnit) (callers : List Activation) (yields : Option Value) :
    List Activation → Prop where
  | idle {act : Activation} (unit : act.unit = u) (idle : act.Idle) :
      Settles u callers yields (act :: callers)
  | back {name : String} (unit : u = .function name) {v : Value} (value : yields = some v) :
      Settles u callers yields
        (Activation.mapFrame (fun f => { f with replay := f.replay ++ [v] }) callers)
  | ended : Settles u callers yields []

namespace Machine

variable {σ : Type} {env : Setting σ} {m : Machine σ} {u : CodeUnit} {frames below : List Frame}
  {subroutines : List (List Frame)} {saved : List (String × Option Value)}
  {callers : List Activation} {yields : Option Value}

/-- The value that the unit in front would hand to its caller in the next micro-step: what its
return statement evaluates to, and null at its end. This looks at the statement alone, not at any
list. -/
def yields? (env : Setting σ) (m : Machine σ) : Option Value :=
  match m.activations with
  | [] => none
  | act :: _ =>
    match act.frames with
    | [] => some .null
    | frame :: _ =>
      match frame.kind with
      | .block path next => do
        let stmt ← env.program.stmt? act.unit ⟨path, next⟩
        let r ← stmt.execute env m.store frame.replay
        let effect ← r.result.toOption
        effect.yields?
      | _ => none

theorem withFrames_settles
    (hm : m.activations = ⟨u, frames, subroutines, saved⟩ :: callers)
    (haside : ∀ stack ∈ subroutines, Frame.Clean stack) {frames' : List Frame}
    (hframes : Frame.Clean frames') :
    Settles u callers yields (m.withFrames frames').activations := by
  rw [withFrames_activations hm]
  exact .idle rfl ⟨hframes, haside⟩

theorem raise_settles (hm : m.activations = ⟨u, frames, subroutines, saved⟩ :: callers)
    (hbelow : Frame.Clean frames.tail) (haside : ∀ stack ∈ subroutines, Frame.Clean stack)
    (line : Line) (fault : Fault) : Settles u callers yields (m.raise line fault).activations := by
  rw [raise_activations, hm]
  cases frames with
  | nil => exact .idle rfl ⟨.nil, haside⟩
  | cons f below => exact .idle rfl ⟨Frame.Clean.cons_iff.mpr ⟨rfl, hbelow⟩, haside⟩

/-- The stack that a subroutine call puts aside has no results: the statement that called it is
done. -/
theorem gosub_settles (hm : m.activations = ⟨u, frames, subroutines, saved⟩ :: callers)
    (hframes : Frame.Clean frames) (haside : ∀ stack ∈ subroutines, Frame.Clean stack)
    (line : Line) (label : String) :
    Settles u callers yields (m.apply env line (.sub label)).2.activations := by
  obtain ⟨hgosub, -⟩ | ⟨fault, hgosub⟩ |
    ⟨target, root, frames', m', hgosub, -, -, -, hresume, hm'⟩ := gosub_cases env hm label
  · rw [apply, hgosub]
    show Settles u callers yields m.activations
    rw [hm]
    exact .idle rfl ⟨hframes, haside⟩
  · rw [apply, hgosub]
    exact raise_settles hm (fun f hf => hframes f (List.mem_of_mem_tail hf)) haside line fault
  · have hpile : ∀ stack ∈ frames :: subroutines, Frame.Clean stack :=
      List.forall_mem_cons.mpr ⟨hframes, haside⟩
    rw [apply, hgosub]
    dsimp only
    rw [recorded_snd, hm']
    exact .idle rfl ⟨.resume hresume, hpile⟩

theorem ret_settles (hm : m.activations = ⟨u, frames, subroutines, saved⟩ :: callers)
    (haside : ∀ stack ∈ subroutines, Frame.Clean stack) (value : Option Value) :
    Settles u callers (some (value.getD .null)) (m.ret value).activations := by
  unfold ret
  rw [hm]
  cases subroutines with
  | cons caller older =>
    obtain ⟨hcaller, holder⟩ := List.forall_mem_cons.mp haside
    simp only [mapTop, hm]
    exact .idle rfl ⟨hcaller, holder⟩
  | nil =>
    cases u with
    | main => exact .ended
    | function name =>
      dsimp only
      rw [returnFromFunction_activations hm]
      exact .back rfl rfl

/-- Whatever a statement that is done asks for, its unit has no results afterwards. The list in
front was emptied by the statement, and all others were empty before. -/
theorem apply_settles (hm : m.activations = ⟨u, frames, subroutines, saved⟩ :: callers)
    (hframes : Frame.Clean frames) (haside : ∀ stack ∈ subroutines, Frame.Clean stack)
    (line : Line) (effect : Effect) :
    Settles u callers effect.yields? (m.apply env line effect).2.activations := by
  -- most effects leave the stack as it is, with the list emptied when the statement was passed
  have stays : Settles u callers effect.yields? m.activations := by
    rw [hm]
    exact .idle rfl ⟨hframes, haside⟩
  cases effect with
  | value v =>
    rw [apply, recorded_snd]
    exact stays
  | delay ns v =>
    rw [apply, recorded_snd]
    exact stays
  | suspend =>
    rw [apply, recorded_snd]
    exact stays
  | exit status =>
    rw [apply, recorded_snd]
    exact .ended
  | jump label =>
    rw [apply]
    obtain ⟨hjump, -⟩ | ⟨hjump, -⟩ | ⟨target, root, frames', hjump, -, -, hresume⟩ :=
      jump_cases env hm label
    · rw [hjump]
      exact stays
    · rw [hjump]
      exact raise_settles hm (fun f hf => hframes f (List.mem_of_mem_tail hf)) haside line _
    · rw [hjump]
      dsimp only
      rw [recorded_snd]
      exact withFrames_settles hm haside (.resume hresume)
  | sub label => exact gosub_settles hm hframes haside line label
  | ret v =>
    rw [apply, recorded_snd]
    exact ret_settles hm haside v

/-! ## What a micro-step makes of the lists -/

/-- A micro-step from this machine leaves these units, with these lists. The four rules are: the
execution in front is over, it has stopped for a function, a fault has come to a handler, and the
run is over. -/
inductive Replays (env : Setting σ) (m : Machine σ) : List Activation → Prop where
  | settles {act : Activation} {callers acts : List Activation}
      (front : m.activations = act :: callers)
      (going : m.pending = none) (settles : Settles act.unit callers (m.yields? env) acts) :
      Replays env m acts
  | call {u : CodeUnit} {kind : FrameKind} {replay replay' : List Value} {below : List Frame}
      {subroutines : List (List Frame)} {saved : List (String × Option Value)}
      {callers : List Activation} {name : String}
      (front : m.activations = ⟨u, ⟨kind, replay⟩ :: below, subroutines, saved⟩ :: callers)
      (stops : Stops env.options.strictOutputs (kind.evaluation env.program u) m.scope replay
        replay' name)
      (shadowed : List (String × Option Value)) :
      Replays env m (Activation.new (.function name) shadowed ::
        ⟨u, ⟨kind, replay'⟩ :: below, subroutines, saved⟩ :: callers)
  /-- A handler starts, in the unit in front or further out. -/
  | caught {inner callers : List Activation} {act act' : Activation}
      (found : m.activations = inner ++ act :: callers) (failed : m.pending ≠ none)
      (unit : act'.unit = act.unit) (idle : act'.Idle) : Replays env m (act' :: callers)
  | ended : Replays env m []

/-- A defect says nothing about the lists. -/
def Replayed (env : Setting σ) (m : Machine σ) (r : Tick × Machine σ) : Prop :=
  r.1 ≠ .defect → Replays env m r.2.activations

theorem Replayed.defect (m m' : Machine σ) : Replayed env m (.defect, m') :=
  fun h => absurd rfl h

/-- A frame is about to run, and no other frame of its unit has results of calls. These are the
premises of all lemmas that follow, one for each kind of frame. -/
structure InFront (env : Setting σ) (m : Machine σ) (u : CodeUnit) (kind : FrameKind)
    (replay : List Value) (below : List Frame) (subroutines : List (List Frame))
    (saved : List (String × Option Value)) (callers : List Activation) : Prop where
  front : m.activations = ⟨u, ⟨kind, replay⟩ :: below, subroutines, saved⟩ :: callers
  going : m.pending = none
  below : Frame.Clean below
  aside : ∀ stack ∈ subroutines, Frame.Clean stack
  nothing : kind.evaluation env.program u = .nothing → replay = []

namespace InFront

variable {kind : FrameKind} {replay replay' : List Value} {place : StmtPath}

theorem settles (h : InFront env m u kind replay below subroutines saved callers)
    {acts : List Activation} (hsettles : Settles u callers (m.yields? env) acts) :
    Replays env m acts :=
  .settles h.front h.going hsettles

theorem yields?_of_execute {path : BlockPath} {next : Nat} {stmt : Stmt} {r : Evaluated σ Effect}
    {effect : Effect}
    (h : InFront env m u (.block path next) replay below subroutines saved callers)
    (hstmt : env.program.stmt? u ⟨path, next⟩ = some stmt)
    (hexec : stmt.execute env m.store replay = some r) (hresult : r.result = .ok effect) :
    m.yields? env = effect.yields? := by
  simp only [yields?, h.front, hstmt, hexec, Option.bind_eq_bind, Option.bind_some, hresult,
    Except.toOption]

theorem withFrames (h : InFront env m u kind replay below subroutines saved callers)
    {frames : List Frame} (hframes : Frame.Clean frames) :
    Replayed env m (.running, m.withFrames frames) :=
  fun _ => h.settles (withFrames_settles h.front h.aside hframes)

theorem turn (h : InFront env m u kind replay below subroutines saved callers)
    (hnothing : kind.evaluation env.program u = .nothing) (kind' : FrameKind) :
    Replayed env m (.running, m.withFrames (⟨kind', replay⟩ :: below)) :=
  h.withFrames (Frame.Clean.cons_iff.mpr ⟨h.nothing hnothing, h.below⟩)

/-- A call of a function is refused, or starts it with the list as the evaluation left it. A refused
call is a fault, and empties the list. -/
theorem interrupt (h : InFront env m u kind replay below subroutines saved callers)
    {m' : Machine σ}
    (hm' : m'.activations = ⟨u, ⟨kind, replay'⟩ :: below, subroutines, saved⟩ :: callers)
    (line : Line) {i : Interrupt} (hstops : ∀ name args, i = .call name args →
      Stops env.options.strictOutputs (kind.evaluation env.program u) m.scope replay replay' name) :
    Replayed env m (.running, m'.interrupt env line i) := by
  -- four things can be wrong with a call, and each is a fault that empties the list
  have refused : ∀ (m'' : Machine σ) (fault : Fault), m''.activations = m'.activations →
      Replays env m (m''.raise line fault).activations := fun m'' fault hsame =>
    h.settles (raise_settles (hsame.trans hm') h.below h.aside line fault)
  intro _
  cases i with
  | fault f => exact refused m' f rfl
  | call name args =>
    show Replays env m (m'.callFunction env line name args).activations
    unfold callFunction
    cases env.program.function? name with
    | none => exact refused m' _ rfl
    | some d =>
      dsimp only
      split
      · exact refused m' _ rfl
      split
      · exact refused m' _ rfl
      rcases bindParams m'.scope [] (d.params.zip args) with ⟨f | shadowed, scope⟩
      · exact refused (m'.withScope scope) f rfl
      -- the caller keeps its list, which is one call short of what it has reached
      · show Replays env m (Activation.new (.function name) shadowed :: m'.activations)
        rw [hm']
        exact .call h.front (hstops name args rfl) shadowed

theorem settle {α : Type} (h : InFront env m u kind replay below subroutines saved callers)
    (line : Line) {r : Except Interrupt α × List Value × Store σ}
    {k : Machine σ → α → Machine σ}
    (hstops : ∀ name args, r.1 = .error (.call name args) →
      Stops env.options.strictOutputs (kind.evaluation env.program u) m.scope replay r.2.1 name)
    (hk : ∀ m' a, ∃ frames, k m' a = m'.withFrames frames ∧ Frame.Clean frames) :
    Replayed env m (m.settle env kind below line r k) := by
  obtain ⟨result, replay', store⟩ := r
  have hm' : ({ m with store }.withFrames (⟨kind, replay'⟩ :: below)).activations =
      ⟨u, ⟨kind, replay'⟩ :: below, subroutines, saved⟩ :: callers :=
    withFrames_activations (m := { m with store }) h.front _
  cases result with
  | ok a =>
    intro _
    obtain ⟨frames, hframes, hclean⟩ :=
      hk ({ m with store }.withFrames (⟨kind, replay'⟩ :: below)) a
    show Replays env m (k _ a).activations
    rw [hframes]
    exact h.settles (withFrames_settles hm' h.aside hclean)
  | error i =>
    refine h.interrupt hm' line ?_
    rintro name args rfl
    exact hstops name args rfl

/-- A statement in front of a block. Its list is handed to the block that goes on behind it, and
must be empty by then (`Stmt.execute_done`). -/
theorem runBlock {path : BlockPath} {next : Nat}
    (h : InFront env m u (.block path next) replay below subroutines saved callers) :
    Replayed env m (m.runBlock env u path next replay below) := by
  unfold Machine.runBlock
  cases hblock : env.program.block? u path with
  | none => exact .defect m m
  | some b =>
    have hat := Program.stmt?_of_block? hblock next
    dsimp only
    cases hstmt : b.body[next]? with
    | none => exact h.withFrames h.below
    | some stmt =>
      rw [hstmt] at hat
      have heval : (FrameKind.block path next).evaluation env.program u = stmt.evaluation := by
        simp only [FrameKind.evaluation, hat]
      have hnothing := h.nothing
      rw [heval] at hnothing
      dsimp only
      cases hs : stmt.isStructured with
      -- a structured statement evaluates nothing itself, so there is nothing on the list that is
      -- left behind
      | true =>
        have hstructured : stmt.evaluation = .nothing := by
          cases stmt <;> first | rfl | cases hs
        rw [if_pos rfl]
        refine h.withFrames ((Frame.Clean.enter stmt _).append ?_)
        exact Frame.Clean.cons_iff.mpr ⟨hnothing hstructured, h.below⟩
      | false =>
        rw [if_neg Bool.false_ne_true]
        cases hexec : stmt.execute env m.store replay with
        | none => exact .defect m m
        | some r =>
          have hm' : ∀ frames, ({ m with store := r.store }.withFrames frames).activations =
              ⟨u, frames, subroutines, saved⟩ :: callers :=
            fun frames => withFrames_activations (m := { m with store := r.store }) h.front frames
          dsimp only
          cases hresult : r.result with
          | ok effect =>
            have hdone := Stmt.execute_done hnothing hexec hresult
            have hclean := Frame.Clean.cons_iff (f := ⟨.block path (next + 1), r.replay⟩).mpr
              ⟨hdone, h.below⟩
            refine fun _ => h.settles ?_
            rw [h.yields?_of_execute hat hexec hresult]
            exact apply_settles (hm' _) hclean h.aside stmt.line effect
          | error i =>
            refine h.interrupt (hm' _) stmt.line ?_
            rintro name args rfl
            rw [heval]
            exact Stmt.execute_stops hexec hresult

theorem runCondition {phase : ConditionPhase}
    (h : InFront env m u (.condition place phase) replay below subroutines saved callers) :
    Replayed env m (m.runCondition env u place phase replay below) := by
  unfold Machine.runCondition
  split
  · rename_i branches otherwise line hstmt
    cases phase with
    | branch => exact h.withFrames h.below
    | test =>
      dsimp only
      rcases hrun : chooseBranch (env.context m.store) line 0 branches
        ⟨replay, 0, m.store.world⟩
        with ⟨⟨testLine, result⟩, st⟩
      rw [Store.run_eq hrun]
      refine h.settle testLine ?_ ?_
      · intro name args hcall
        obtain rfl : result = .error (.call name args) := hcall
        have heval : (FrameKind.condition place .test).evaluation env.program u =
            .branches branches := by
          simp only [FrameKind.evaluation, hstmt]
        rw [heval]
        exact Stops.of_play (fun _ => rfl) (chooseBranch_plays hrun)
      · intro m' chosen
        -- whichever block starts, it and the frame under it have no results
        have started : ∀ sel, Frame.Clean
            (Frame.block (place.child sel) 0 :: Frame.new (.condition place .branch) :: below) :=
          fun _ => .new _ (.new _ h.below)
        cases chosen with
        | some i => exact ⟨_, rfl, started (.branch i)⟩
        | none =>
          cases otherwise with
          | some b => exact ⟨_, rfl, started .otherwise⟩
          | none => exact ⟨_, rfl, h.below⟩
  · exact .defect m m

/-- A test decides between the body and what is below, and neither has results. Loops and retries
share this; `again` has what they ask besides the test. -/
theorem test {kind' : FrameKind} {test : Expr} {again : Bool → Bool}
    (h : InFront env m u kind replay below subroutines saved callers)
    (heval : kind.evaluation env.program u = .value test) (line : Line) :
    Replayed env m (m.settle env kind below line (m.evalTest env replay test) fun m holds =>
      if again holds then
        m.withFrames (Frame.block (place.child .body) 0 :: Frame.new kind' :: below)
      else m.withFrames below) := by
  refine h.settle line ?_ ?_
  · intro name args hcall
    rw [heval]
    exact evalTest_stops _ hcall
  · intro m' holds
    split
    · exact ⟨_, rfl, .new _ (.new _ h.below)⟩
    · exact ⟨_, rfl, h.below⟩

theorem runLoop {loop : LoopPhase → FrameKind} {phase : LoopPhase}
    (hloop : loop = .cycle place ∨ loop = .doCycle place)
    (h : InFront env m u (loop phase) replay below subroutines saved callers) :
    Replayed env m (m.runLoop env u place loop phase replay below) := by
  unfold Machine.runLoop
  cases phase with
  | body =>
    refine h.turn ?_ _
    obtain rfl | rfl := hloop <;> rfl
  | test =>
    dsimp only
    split
    · rename_i test body line hstmt
      refine h.test ?_ _
      obtain rfl | rfl := hloop <;> simp only [FrameKind.evaluation, hstmt]
    · rename_i body test line hstmt
      refine h.test ?_ _
      obtain rfl | rfl := hloop <;> simp only [FrameKind.evaluation, hstmt]
    · exact .defect m m

theorem runRetry {phase : RetryPhase} {attempt max : UInt32}
    (h : InFront env m u (.retry place phase attempt max) replay below subroutines saved callers) :
    Replayed env m (m.runRetry env u place phase attempt max replay below) := by
  unfold Machine.runRetry
  dsimp only
  split
  · rename_i attempts body test line hstmt
    cases phase with
    | enter =>
      refine h.settle _ ?_ ?_
      · intro name args hcall
        have heval : (FrameKind.retry place .enter attempt max).evaluation env.program u =
            .value attempts := by
          simp only [FrameKind.evaluation, hstmt]
        -- making a number of the value asks for no call, so the calls are those of the expression
        have hplay : (CallTree.expr m.store.scope attempts >>= fun v =>
              CallTree.done (attemptsOf v)).play (env.context m.store) =
            Eval.expr (env.context m.store) attempts >>= fun v => Eval.ofExcept (attemptsOf v) := by
          rw [CallTree.play_bind]
          exact congrArg (· >>= _) (CallTree.play_expr (env.context m.store) attempts)
        rw [heval]
        refine Store.run_stops hplay (fun vs => ?_) hcall
        exact (CallTree.asks_bind_done (fun v => ⟨_, rfl⟩) vs).symm
      · exact fun m' n => ⟨_, rfl, .new _ (.new _ h.below)⟩
    | body =>
      cases test with
      | none => exact h.withFrames h.below
      | some test => exact h.turn rfl _
    | test =>
      cases test with
      | none => exact h.withFrames h.below
      | some test =>
        refine h.test ?_ _
        simp only [FrameKind.evaluation, hstmt]
  · exact .defect m m

end InFront

/-- What is under a handler has no results: it is behind the frame in front, or it was put aside. -/
theorem caught_idle {scope : Scope} {acts : List Activation} {c : Caught}
    (found : findCaught scope acts = .ok c) (hbehind : ∀ act ∈ acts, act.Behind) :
    ∃ inner act, acts = inner ++ act :: c.callers ∧ c.activation.unit = act.unit ∧
      c.activation.Idle := by
  obtain ⟨inner, act, newer, above, f, rfl, hstacks, -, hunit, -⟩ := findCaught_ok found
  have hact : act.Behind := hbehind act (List.mem_append_right _ List.mem_cons_self)
  have under : ∀ {above : List Frame}, Frame.Clean (above ++ f :: c.activation.frames) →
      Frame.Clean c.activation.frames := fun h =>
    (Frame.Clean.cons_iff.mp (List.forall_mem_append.mp h).2).2
  refine ⟨inner, act, rfl, hunit, ?_⟩
  cases newer with
  | nil =>
    obtain ⟨hframes, haside⟩ := List.cons.inj hstacks
    have hbelow := hact.below
    rw [hframes] at hbelow
    refine ⟨?_, haside ▸ hact.aside⟩
    cases above with
    | nil => exact hbelow
    | cons top above => exact under hbelow
  | cons top newer =>
    obtain ⟨-, haside⟩ := List.cons.inj hstacks
    have hall := hact.aside
    rw [haside] at hall
    obtain ⟨hstack, holder⟩ := List.forall_mem_cons.mp (List.forall_mem_append.mp hall).2
    exact ⟨under hstack, holder⟩

theorem unwind_replays (hbehind : ∀ act ∈ m.activations, act.Behind) {failure : Failure}
    (hpending : m.pending = some failure) : Replayed env m (m.unwind env failure) := by
  unfold unwind
  split
  · exact fun _ => .ended
  cases hfound : findCaught m.scope m.activations with
  | error scope => exact fun _ => .ended
  | ok c =>
    dsimp only
    obtain ⟨m', hhandle, hm'⟩ | ⟨hhandle, -⟩ := handle_cases env m failure c
    · rw [hhandle]
      intro _
      obtain ⟨inner, act, hacts, hunit, hidle⟩ := caught_idle hfound hbehind
      have hstarted : ({ c.activation with
          frames := c.handler.frames ++ c.activation.frames } : Activation).Idle :=
        ⟨(Frame.Clean.handler c.handler).append hidle.frames, hidle.aside⟩
      have hfailed : m.pending ≠ none := by simp [hpending]
      dsimp only
      rw [hm']
      refine .caught hacts hfailed ?_ hstarted
      exact hunit
    · rw [hhandle]
      exact .defect m m

/-- **What a micro-step makes of the lists of results**, if it is no defect. The two premises are
the part of the invariant that is about the units as they are now. -/
theorem tick_replays (hbehind : ∀ act ∈ m.activations, act.Behind)
    (hnothing : ∀ act callers, m.activations = act :: callers →
      act.evaluation env.program = .nothing → act.replay = []) :
    Replayed env m (m.tick env) := by
  obtain hheed | ⟨hheed, -⟩ | ⟨line, hheed⟩ := heedCancel_cases env m
  · rw [tick, hheed]
    dsimp only
    cases hpending : m.pending with
    -- a handler starts with empty lists, and the units in front of it are gone
    | some failure => exact unwind_replays hbehind hpending
    | none =>
      dsimp only
      cases hm : m.activations with
      | nil =>
        intro _
        dsimp only
        rw [hm]
        exact .ended
      | cons act callers =>
        have hact := hbehind act (hm ▸ List.mem_cons_self)
        have hidle := hnothing act callers hm
        obtain ⟨u, frames, subroutines, saved⟩ := act
        dsimp only
        cases frames with
        | nil =>
          cases u with
          | main => exact fun _ => .ended
          | function name =>
            intro _
            dsimp only
            rw [returnFromFunction_activations hm]
            exact .settles hm hpending (.back rfl (by simp only [yields?, hm]))
        | cons frame below =>
          obtain ⟨kind, replay⟩ := frame
          -- what every kind of frame may use: only the list in front can hold results
          have h : InFront env m u kind replay below subroutines saved callers :=
            ⟨hm, hpending, hact.below, hact.aside, hidle⟩
          cases kind with
          | block path next => exact h.runBlock
          | condition place phase => exact h.runCondition
          | cycle place phase => exact h.runLoop (.inl rfl)
          | doCycle place phase => exact h.runLoop (.inr rfl)
          | retry place phase attempt max => exact h.runRetry
          | tryCatch place phase => exact h.withFrames h.below
  · rw [tick, hheed]
    exact .defect m m
  · rw [tick_cancelled hheed]
    exact fun _ => .ended

end Machine

end Stepwise
