import Stepwise.Proofs.Doubles
import Stepwise.Proofs.Heights
import Stepwise.Proofs.Ticked

/-!
# What a micro-step does to a retry

A retry counts its attempts in its frame, and two parts of the machine count them up: the test
behind the body, and a fault that comes back to the frame. Frames with counters are also put aside
by subroutine calls and put back by returns, wait under functions that their own header calls, and
are made out of nothing by jumps.

`RetryStep` lists what becomes of the frame of a retry that is past its entry, at any height.
**There is nothing else** (`retry_step`): the number of attempts is set on leaving the entry, and a
body that starts again is one attempt more, while there are attempts left.

## How the list is proved

The frame after the micro-step is given, and what it was before is asked for. So each case asks
where the frame may come from. Most of the stack was there before, at the same height, which is what
`Within` of `Proofs/Heights` says, and then the frame is kept (`RetryStep.stay`). What is not from
there is among the few frames that were put on top, and most of these cannot be retries past their
entry (`RetryStep.push_plain`). The cases that are left are the ones that the list has: a header, a
body that is done, a jump, and a fault.

That a body starts, or does not, is to be shown in each case. `BodyStarts` needs the first statement
of the body in front and the frame of the retry under it, and that something has changed: the body
was not running before, or a fault was on its way.

The cases are those of `Ticked`, one lemma for each that can matter, and `retry_step` puts them
together. `Proofs/RetryBudget` goes on from single micro-steps to runs.
-/

namespace Stepwise

open Activation

/-! ## The number of attempts -/

/-- The number of attempts that a value stands for: its whole part, but at least one, and no more
than fits in 32 bits. -/
def Value.Clamped (v : Value) (n : UInt32) : Prop :=
  ∃ x, v = .num x ∧ x.isNaN = false ∧ n.toNat = max 1 (min 4294967295 (Number.toCount x))

theorem Value.Clamped.one_le {v : Value} {n : UInt32} (h : v.Clamped n) : 1 ≤ n.toNat := by
  obtain ⟨x, -, -, hn⟩ := h
  omega

/-- The machine computes the number in doubles and 32-bit words, and what it comes to is the whole
part within its bounds. Below one the double is raised to one first; from one on the words hold what
the count says, cut off at their largest. -/
theorem clamped_of_attemptsOf {v : Value} {n : UInt32} (h : Machine.attemptsOf v = .ok n) :
    v.Clamped n := by
  cases v with
  | num x =>
    simp only [Machine.attemptsOf, Value.num?] at h
    split at h
    · cases h
    rename_i hnan
    have number : x.isNaN = false := Bool.not_eq_true _ ▸ hnan
    cases h
    refine ⟨x, rfl, number, ?_⟩
    have hone : (1.0 : Float).isNaN = false := by decide +kernel
    simp only [Number.max, number, hone, Bool.false_eq_true, if_false]
    by_cases hlt : x < 1.0
    · have hcount : Number.toCount x = 0 := by
        rw [Number.toCount, Number.toIntIn_of_lt_one hlt (by decide)]
        rfl
      rw [if_pos hlt, hcount]
      decide +kernel
    · have hwhole : 1 ≤ Number.toIntIn 0 0xffffffff x :=
        Number.one_le_toIntIn number hlt (by decide)
      have hmin : Number.toIntIn 0 0xffffffff x =
          min 0xffffffff (Number.toIntIn 0 0xffffffffffffffff x) :=
        Number.toIntIn_eq_min x (by decide) (by decide)
      rw [if_neg hlt, Number.toUInt32, Number.toCount, UInt32.toNat_ofNat']
      omega
  | _ => cases h

/-! ## Frames of retries -/

/-- A retry that knows its number of attempts. -/
def FrameKind.PastEntry : FrameKind → Prop
  | .retry _ phase _ _ => phase ≠ .enter
  | _ => False

/-- A retry that runs its body, for the first and only time. Jumps make such frames: they cannot
know how many attempts there would be, as the header was not evaluated. -/
def FrameKind.OnlyAttempt : FrameKind → Prop
  | .retry _ phase attempt max => phase = .body ∧ attempt = 1 ∧ max = 1
  | _ => True

namespace Frame

theorem onlyAttempt_around (stmt : Stmt) (place : StmtPath) (sel : BlockSel) :
    ∀ f ∈ around stmt place sel, f.kind.OnlyAttempt := by
  unfold around
  split <;> simp [new, FrameKind.OnlyAttempt]

/-- A jump goes on in a block, behind a statement of it. So it never stands before the first
statement of a body. -/
theorem descend_spec {b : Block} {path rest : BlockPath} {next : Nat} {below frames : List Frame}
    (hbelow : ∀ f ∈ below, f.kind.OnlyAttempt)
    (h : descend b path next below rest = some frames) :
    (∀ f ∈ frames, f.kind.OnlyAttempt) ∧
      ∃ path' below', frames = block path' next :: below' := by
  induction rest generalizing b path below with
  | nil =>
    cases h
    exact ⟨List.forall_mem_cons.mpr ⟨trivial, hbelow⟩, path, below, rfl⟩
  | cons turn rest ih =>
    obtain ⟨index, sel⟩ := turn
    obtain ⟨c, hc⟩ := follow?_of_descend h
    obtain ⟨stmt, child, hstmt, hchild, -⟩ := Block.follow?_cons_eq_some.mp hc
    rw [descend_cons hstmt hchild] at h
    refine ih (List.forall_mem_append.mpr ⟨onlyAttempt_around stmt _ sel, ?_⟩) h
    exact List.forall_mem_cons.mpr ⟨trivial, hbelow⟩

theorem resume_spec {root : Block} {target : StmtPath} {frames : List Frame}
    (h : resume root target = some frames) :
    (∀ f ∈ frames, f.kind.OnlyAttempt) ∧
      ∃ path below, frames = block path (target.index + 1) :: below :=
  descend_spec (List.forall_mem_nil _) h

end Frame

theorem Handler.frames_eq (h : Handler) : ∃ path f, h.frames = [Frame.block path 0, f] := by
  cases h with
  | tryCatch => exact ⟨_, _, rfl⟩
  | retry => exact ⟨_, _, rfl⟩

/-! ## What happens to a retry frame -/

namespace Machine

variable {σ : Type}

/-- In a micro-step the body of the retry at this height starts: its first statement comes to the
front, either since a fault was caught or since the body was not running. It is told from the frames
and the fault before and after, without a look at what the machine did in between. -/
structure BodyStarts (env : Setting σ) (m : Machine σ) (spot : Height)
    (place : StmtPath) : Prop where
  frame : ∃ attempt max, kindAt? (m.tick env).2.activations spot =
    some (.retry place .body attempt max)
  front : ∃ u, (m.tick env).2.LooksAt spot.above u (Frame.block (place.child .body) 0)
  going : (m.tick env).2.pending = none
  fresh : m.pending ≠ none ∨
    ∀ attempt max, kindAt? m.activations spot ≠ some (.retry place .body attempt max)

/-- A micro-step is a jump, and the frame at this height is one of those that it makes. A subroutine
call is a jump, too, and its frames stand on a stack of their own. -/
inductive Jumped (env : Setting σ) (m : Machine σ) (spot : Height) : Prop where
  | mk {u : CodeUnit} {path : BlockPath} {next : Nat} {replay : List Value}
      {below frames : List Frame}
      {subroutines older : List (List Frame)} {saved : List (String × Option Value)}
      {callers : List Activation} {stmt : Stmt} {label : String} {target : StmtPath} {root : Block}
      (going : m.pending = none)
      (front : m.activations =
        ⟨u, ⟨.block path next, replay⟩ :: below, subroutines, saved⟩ :: callers)
      (hstmt : env.program.stmt? u ⟨path, next⟩ = some stmt)
      (asks : stmt.Yields (.jump label) ∨ stmt.Yields (.sub label))
      (hlabel : env.program.label? u label = some target)
      (hroot : env.program.unitRoot? u = some root)
      (resumes : Frame.resume root target = some frames)
      (after : (m.tick env).2.activations = ⟨u, frames, older, saved⟩ :: callers)
      (inside : spot.callers = callers.length ∧ spot.older = older.length) : Jumped env m spot

/-- What a micro-step from `m` does to the frame of a retry that is past its entry, by phase,
attempt and number of attempts after it. Each rule says whether the body started, and where the
numbers come from. -/
inductive RetryStep (env : Setting σ) (m : Machine σ) (spot : Height) (place : StmtPath) :
    RetryPhase → UInt32 → UInt32 → Prop where
  | kept {phase : RetryPhase} {attempt max : UInt32}
      (before : kindAt? m.activations spot = some (.retry place phase attempt max))
      (quiet : ¬ BodyStarts env m spot place) : RetryStep env m spot place phase attempt max
  /-- The body is done, and the test comes next. -/
  | turned {attempt max : UInt32}
      (before : kindAt? m.activations spot = some (.retry place .body attempt max))
      (quiet : ¬ BodyStarts env m spot place) : RetryStep env m spot place .test attempt max
  | jumped (jump : Jumped env m spot) (quiet : ¬ BodyStarts env m spot place) :
      RetryStep env m spot place .body 1 1
  /-- The number of attempts is known, and the body starts for the first time. -/
  | first {u : CodeUnit} {attempt max n : UInt32} {replay : List Value} {attempts : Expr}
      {body : Block} {test : Option Expr} {line : Line} {v : Value} {st : EvalState σ}
      (going : m.pending = none)
      (front : m.LooksAt spot u ⟨.retry place .enter attempt max, replay⟩)
      (hstmt : env.program.stmt? u place = some (.retry attempts body test line))
      (evaluates : (Eval.expr (env.context m.store) attempts).run ⟨replay, 0, m.store.world⟩ =
        (.ok v, st))
      (clamped : v.Clamped n) (starts : BodyStarts env m spot place) :
      RetryStep env m spot place .body 1 n
  /-- The test holds, and the body starts again. -/
  | again {u : CodeUnit} {attempt attempt' max : UInt32} {replay : List Value}
      {attempts test : Expr} {body : Block} {line : Line} {v : Value} {st : EvalState σ}
      (going : m.pending = none)
      (front : m.LooksAt spot u ⟨.retry place .test attempt max, replay⟩)
      (hstmt : env.program.stmt? u place = some (.retry attempts body (some test) line))
      (evaluates : (Eval.expr (env.context m.store) test).run ⟨replay, 0, m.store.world⟩ =
        (.ok v, st))
      (truthy : v.isTruthy = true) (left : attempt < max)
      (next : attempt'.toNat = attempt.toNat + 1) (starts : BodyStarts env m spot place) :
      RetryStep env m spot place .body attempt' max
  /-- A fault comes to the frame while the body runs, and the body starts again. -/
  | caught {attempt attempt' max : UInt32} {failure : Failure} (pending : m.pending = some failure)
      (before : kindAt? m.activations spot = some (.retry place .body attempt max))
      (left : attempt < max) (next : attempt'.toNat = attempt.toNat + 1)
      (starts : BodyStarts env m spot place) : RetryStep env m spot place .body attempt' max

variable {env : Setting σ} {m m' : Machine σ} {spot : Height} {place : StmtPath}
  {phase : RetryPhase} {attempt max : UInt32}

/-- Counting up does not wrap around while there are attempts left. -/
theorem toNat_succ_of_lt (left : attempt < max) : (attempt + 1).toNat = attempt.toNat + 1 := by
  have hlt := UInt32.lt_iff_toNat_lt.mp left
  have hmax := max.toNat_lt
  rw [UInt32.toNat_add, UInt32.toNat_one]
  omega

/-- A frame that a jump made has one attempt, and its body goes on behind a statement. So the jump
is not a start of the body. -/
theorem Jumped.retry (jump : Jumped env m spot)
    (frame : kindAt? (m.tick env).2.activations spot = some (.retry place phase attempt max)) :
    (phase = .body ∧ attempt = 1 ∧ max = 1) ∧ ¬ BodyStarts env m spot place := by
  obtain ⟨n, older, below⟩ := spot
  cases jump with
  | @mk u _ _ _ _ frames _ older saved callers _ _ target root going front hstmt asks hlabel hroot
      resumes after inside =>
    obtain ⟨rfl, rfl⟩ := inside
    obtain ⟨hall, path', below', rfl⟩ := Frame.resume_spec resumes
    rw [after] at frame
    constructor
    · obtain ⟨act, stack, f, hact, hstack, hf, hkind⟩ := kindAt?_eq_some.mp frame
      rw [fromBottom_cons_length] at hact
      cases hact
      rw [fromBottom_cons_length] at hstack
      cases hstack
      have honly := hall f (mem_of_fromBottom hf)
      rw [hkind] at honly
      exact honly
    · intro starts
      obtain ⟨u', below₁, older₁, saved₁, callers₁, hacts, -⟩ := starts.front
      rw [after] at hacts
      cases hacts

/-! ## Frames that stay -/

/-- While no fault is about, a frame that was there before is not started anew. A start needs that
the body was not running before, or that a fault was. -/
theorem RetryStep.stay (going : m.pending = none)
    (frame : kindAt? (m.tick env).2.activations spot = some (.retry place phase attempt max))
    (before : kindAt? m.activations spot = some (.retry place phase attempt max)) :
    RetryStep env m spot place phase attempt max := by
  refine .kept before ?_
  intro starts
  obtain ⟨attempt', max', hframe⟩ := starts.frame
  rw [frame] at hframe
  cases hframe
  obtain hpending | hfresh := starts.fresh
  · exact hpending going
  · exact hfresh _ _ before

/-- A micro-step that leads nowhere starts no body, also not while a fault is about: behind a start
no fault is pending. -/
theorem RetryStep.same (hsame : (m.tick env).2 = m)
    (frame : kindAt? (m.tick env).2.activations spot = some (.retry place phase attempt max)) :
    RetryStep env m spot place phase attempt max := by
  have before := frame
  rw [hsame] at before
  cases hpending : m.pending with
  | none => exact .stay hpending frame before
  | some failure =>
    refine .kept before ?_
    intro starts
    have calm := starts.going
    rw [hsame, hpending] at calm
    cases calm

section

variable {u : CodeUnit} {below : List Frame} {older : List (List Frame)}
  {saved : List (String × Option Value)} {callers : List Activation}

/-- What is left of the stacks gets frames on top; those that are retries past their entry are to be
looked at. All others were there before. -/
theorem RetryStep.push (above below : List Frame) (going : m.pending = none)
    (within : Within (⟨u, below, older, saved⟩ :: callers) m.activations)
    (after : (m.tick env).2.activations = ⟨u, above ++ below, older, saved⟩ :: callers)
    (frame : kindAt? (m.tick env).2.activations spot = some (.retry place phase attempt max))
    (pushed : ∀ i f, spot = ⟨callers.length, older.length, below.length + i⟩ →
      fromBottom above i = some f → f.kind = .retry place phase attempt max →
        RetryStep env m spot place phase attempt max) :
    RetryStep env m spot place phase attempt max := by
  have hpush := frame
  rw [after] at hpush
  obtain hbelow | ⟨i, f, hspot, hf, hkind⟩ := kindAt?_push hpush
  · exact .stay going frame (within spot _ hbelow)
  · exact pushed i f hspot hf hkind

/-- The usual case: no frame on top is a retry past its entry, so the one that is asked for is
below. -/
theorem RetryStep.push_plain (above below : List Frame) (going : m.pending = none)
    (within : Within (⟨u, below, older, saved⟩ :: callers) m.activations)
    (after : (m.tick env).2.activations = ⟨u, above ++ below, older, saved⟩ :: callers)
    (frame : kindAt? (m.tick env).2.activations spot = some (.retry place phase attempt max))
    (late : phase ≠ .enter) (plain : ∀ f ∈ above, ¬ f.kind.PastEntry) :
    RetryStep env m spot place phase attempt max := by
  refine .push above below going within after frame ?_
  intro i f _ hf hkind
  refine absurd ?_ (plain f (mem_of_fromBottom hf))
  rw [hkind]
  exact late

/-- A frame of a retry with the first statement of its body on top. It is how every start looks;
whether it is one depends on what was there before. -/
theorem BodyStarts.of_push
    (after : (m.tick env).2.activations = ⟨u, Frame.block (place.child .body) 0 ::
      Frame.new (.retry place .body attempt max) :: below, older, saved⟩ :: callers)
    (going : (m.tick env).2.pending = none)
    (fresh : m.pending ≠ none ∨ ∀ attempt max,
      kindAt? m.activations ⟨callers.length, older.length, below.length⟩ ≠
        some (.retry place .body attempt max)) :
    BodyStarts env m ⟨callers.length, older.length, below.length⟩ place := by
  refine ⟨⟨attempt, max, ?_⟩, ⟨u, _, older, saved, callers, after, rfl⟩, going, fresh⟩
  rw [after]
  exact kindAt?_top u [_] _ below older saved callers

end

/-! ## The header of a retry -/

section

variable {u : CodeUnit} {replay : List Value} {below : List Frame} {subroutines : List (List Frame)}
  {saved : List (String × Option Value)} {callers : List Activation}

theorem length_frames_eq {frames frames' : List Frame}
    (h : (⟨u, frames, subroutines, saved⟩ :: callers : List Activation) =
      ⟨u, frames', subroutines, saved⟩ :: callers) : frames.length = frames'.length := by
  obtain ⟨hact, -⟩ := List.cons.inj h
  exact congrArg (fun act : Activation => act.frames.length) hact

/-- An evaluation that stopped puts no frame on those of its unit: it leaves as many, or a function
in front of all. -/
theorem interrupt_ne_push {kind : FrameKind} (hm : m.activations =
      ⟨u, ⟨kind, replay⟩ :: below, subroutines, saved⟩ :: callers) (line : Line)
      (i : Interrupt) (f g : Frame) :
    (m.interrupt env line i).activations ≠
      ⟨u, f :: g :: below, subroutines, saved⟩ :: callers := by
  intro h
  obtain hheld | ⟨name, shadowed, hcall⟩ := interrupt_leaves env m line i
  · rw [h, hm] at hheld
    exact Nat.succ_ne_self _ (length_frames_eq hheld)
  · rw [h, hm] at hcall
    exact Nat.succ_ne_self _ (congrArg List.length hcall).symm

/-- A micro-step that goes on with a retry runs it. A cancellation would have ended the run. -/
theorem tick_eq_runRetry (going : m.pending = none)
    (front : m.activations =
      ⟨u, ⟨.retry place phase attempt max, replay⟩ :: below, subroutines, saved⟩ :: callers)
    (running : (m.tick env).1 = .running) :
    m.tick env = m.runRetry env u place phase attempt max replay below := by
  obtain hheed | ⟨hheed, -⟩ | ⟨line, hheed⟩ := heedCancel_cases env m
  · rw [tick, hheed]
    simp only [going, front]
  · rw [tick, hheed] at running
    cases running
  · rw [tick_cancelled hheed] at running
    cases running

/-- Where the entry of a retry starts its body, the number of attempts was evaluated. This is read
back from the frames: an evaluation that stops, or a value that is no number, leaves others. -/
theorem runRetry_first {attempt' n : UInt32}
    (front : m.activations =
      ⟨u, ⟨.retry place .enter attempt max, replay⟩ :: below, subroutines,
        saved⟩ :: callers)
    (after : (m.runRetry env u place .enter attempt max replay below).2.activations =
      ⟨u, Frame.block (place.child .body) 0 :: Frame.new (.retry place .body attempt' n) :: below,
        subroutines, saved⟩ :: callers) :
    ∃ attempts body test line v st,
      env.program.stmt? u place = some (.retry attempts body test line) ∧
        (Eval.expr (env.context m.store) attempts).run ⟨replay, 0, m.store.world⟩ =
          (.ok v, st) ∧
      v.Clamped n := by
  have held : ∀ (store : Store σ) (frames : List Frame),
      ({ m with store }.withFrames frames).activations =
      ⟨u, frames, subroutines, saved⟩ :: callers := fun store frames =>
    withFrames_activations (m := { m with store }) front frames
  unfold runRetry at after
  dsimp only at after
  split at after
  · rename_i attempts body test line hstmt
    rcases hrun : (Eval.expr (env.context m.store) attempts).run.run ⟨replay, 0, m.store.world⟩
      with ⟨i | v, st⟩
    -- the expression stopped: a call puts a unit in front, and a fault keeps the phase
    · rw [Store.run_eq (run_bind_error hrun)] at after
      exact absurd after (interrupt_ne_push (held _ _) _ i _ _)
    -- a value that is no number of attempts is a fault as well
    rcases hattempts : attemptsOf v with f | n'
    · have hof : (Eval.ofExcept (attemptsOf v) : Eval σ UInt32).run.run st =
          (.error (.fault f), st) := by
        rw [hattempts]
        rfl
      rw [Store.run_eq ((run_bind_ok hrun).trans hof)] at after
      exact absurd after (interrupt_ne_push (held _ _) _ _ _ _)
    · have hof : (Eval.ofExcept (attemptsOf v) : Eval σ UInt32).run.run st = (.ok n', st) := by
        rw [hattempts]
        rfl
      rw [Store.run_eq ((run_bind_ok hrun).trans hof)] at after
      simp only [settle, withFrames_withFrames, held] at after
      cases after
      exact ⟨attempts, body, test, line, v, st, hstmt, hrun, clamped_of_attemptsOf hattempts⟩
  · rw [front] at after
    cases after

/-- Where the test of a retry starts its body again, it holds. A retry without a test, or with a
test that does not hold, has one frame less afterwards and not one more. -/
theorem runRetry_again {attempt' n : UInt32}
    (front : m.activations =
      ⟨u, ⟨.retry place .test attempt max, replay⟩ :: below, subroutines, saved⟩ :: callers)
    (after : (m.runRetry env u place .test attempt max replay below).2.activations =
      ⟨u, Frame.block (place.child .body) 0 :: Frame.new (.retry place .body attempt' n) :: below,
        subroutines, saved⟩ :: callers) :
    ∃ attempts body test line v st,
      env.program.stmt? u place = some (.retry attempts body (some test) line) ∧
        (Eval.expr (env.context m.store) test).run ⟨replay, 0, m.store.world⟩ = (.ok v, st) ∧
      v.isTruthy = true := by
  have held : ∀ (store : Store σ) (frames : List Frame),
      ({ m with store }.withFrames frames).activations =
      ⟨u, frames, subroutines, saved⟩ :: callers := fun store frames =>
    withFrames_activations (m := { m with store }) front frames
  unfold runRetry at after
  dsimp only at after
  split at after
  · rename_i attempts body test line hstmt
    cases test with
    | none =>
      dsimp only at after
      rw [withFrames_activations front] at after
      -- the retry is left, so there is a frame less where there should be one more
      have hlength := length_frames_eq after
      simp only [List.length_cons] at hlength
      omega
    | some test =>
      dsimp only at after
      rcases hrun : (Eval.expr (env.context m.store) test).run.run ⟨replay, 0, m.store.world⟩
        with ⟨i | v, st⟩
      · rw [evalTest, Store.run_eq (run_bind_error hrun)] at after
        exact absurd after (interrupt_ne_push (held _ _) _ i _ _)
      · refine ⟨attempts, body, test, line, v, st, hstmt, hrun, ?_⟩
        rw [evalTest, Store.run_eq (run_bind_ok hrun)] at after
        -- a test that does not hold leaves the retry, too
        rcases htruthy : v.isTruthy with _ | _
        · rw [htruthy] at after
          simp only [settle, Bool.false_and, Bool.false_eq_true, if_false, withFrames_withFrames,
            held] at after
          have hlength := length_frames_eq after
          simp only [List.length_cons] at hlength
          omega
        · rfl
  · rw [front] at after
    cases after

end

/-! ## Faults -/

/-- A fault ends the run, or leads nowhere, or starts the handler that is found. The handler of a
retry raises no fault of its own, as it has no variable to bind. -/
theorem unwind_cases (env : Setting σ) (m : Machine σ) (failure : Failure) :
    (m.unwind env failure).2.activations = [] ∨ (m.unwind env failure).2 = m ∨
      ∃ c, findCaught m.scope m.activations = .ok c ∧
        (m.unwind env failure).2.activations =
          { c.activation with frames := c.handler.frames ++ c.activation.frames } :: c.callers ∧
        ∀ place attempt max, c.handler = .retry place attempt max →
          (m.unwind env failure).2.pending = none := by
  unfold unwind
  split
  · exact .inl rfl
  rcases hfind : findCaught m.scope m.activations with s | c
  · exact .inl rfl
  dsimp only
  obtain ⟨m', hhandle, hacts⟩ | ⟨hhandle, -⟩ := handle_cases env m failure c
  · rw [hhandle]
    refine .inr (.inr ⟨c, rfl, hacts, ?_⟩)
    intro place attempt max hhandler
    rw [handle, hhandler] at hhandle
    cases hhandle
    exact pending_withFrames _ _
  · rw [hhandle]
    exact .inr (.inl rfl)

theorem retry_of_handler? {f : Frame} (h : f.handler? = some (.retry place attempt max)) :
    f.kind = .retry place .body attempt max ∧ attempt < max := by
  unfold Frame.handler? at h
  split at h
  · cases h
  · rename_i hkind
    split at h
    · rename_i left
      cases h
      exact ⟨hkind, left⟩
    · cases h
  · cases h

/-! ## Every micro-step -/

section

variable {u : CodeUnit} {subroutines : List (List Frame)} {saved : List (String × Option Value)}
  {callers : List Activation}

/-- A header starts a block: a retry gets its number of attempts, or its test holds. The headers of
other statements start blocks that have no retry under them but those that were there. -/
theorem start_retryStep {sel : BlockSel} {kind kind' : FrameKind} {place' : StmtPath}
    {replay : List Value} {below : List Frame} (going : m.pending = none)
    (starts : kind.Starts place' sel kind')
    (front : m.activations = ⟨u, ⟨kind, replay⟩ :: below, subroutines, saved⟩ :: callers)
    (running : (m.tick env).1 = .running) (calm : (m.tick env).2.pending = none)
    (after : (m.tick env).2.activations =
      ⟨u, Frame.block (place'.child sel) 0 :: Frame.new kind' :: below, subroutines,
        saved⟩ :: callers)
    (frame : kindAt? (m.tick env).2.activations spot = some (.retry place phase attempt max))
    (late : phase ≠ .enter) : RetryStep env m spot place phase attempt max := by
  have within : Within (⟨u, below, subroutines, saved⟩ :: callers) m.activations := by
    rw [front]
    exact Within.cutTop u [_] below subroutines saved callers
  have here : m.LooksAt ⟨callers.length, subroutines.length, below.length⟩ u
      ⟨kind, replay⟩ :=
    ⟨below, subroutines, saved, callers, front, rfl⟩
  have plain : ¬ kind'.PastEntry → RetryStep env m spot place phase attempt max := by
    intro hplain
    refine .push_plain [_, _] below going within after frame late ?_
    exact List.forall_mem_cons.mpr ⟨id, List.forall_mem_singleton.mpr hplain⟩
  -- the frame of a retry that starts its body is new in this phase
  have started : ∀ attempt' n, sel = .body → kind' = .retry place' .body attempt' n →
      (∀ attempt max, kind ≠ .retry place' .body attempt max) →
      (BodyStarts env m ⟨callers.length, subroutines.length, below.length⟩ place' →
        RetryStep env m ⟨callers.length, subroutines.length, below.length⟩ place' .body
          attempt' n) →
      RetryStep env m spot place phase attempt max := by
    rintro attempt' n rfl rfl hfresh hstep
    refine .push [_, _] below going within after frame ?_
    intro i f hspot hf hkind
    obtain ⟨rfl, rfl⟩ | ⟨rfl, rfl⟩ := fromBottom_pair hf
    · cases hkind
      subst hspot
      refine hstep (.of_push after calm (.inr ?_))
      intro attempt max hbody
      rw [here.kindAt?] at hbody
      exact hfresh attempt max (Option.some.inj hbody)
    · cases hkind
  cases starts with
  | condition => exact plain id
  | cycle => exact plain id
  | doCycle => exact plain id
  | first attempt₀ max₀ n =>
    have hrun := tick_eq_runRetry going front running
    obtain ⟨attempts, body, test, line, v, st, hstmt, heval, hclamped⟩ :=
      runRetry_first front (hrun ▸ after)
    exact started 1 n rfl rfl nofun (.first going here hstmt heval hclamped)
  | again left =>
    have hrun := tick_eq_runRetry going front running
    obtain ⟨attempts, body, test, line, v, st, hstmt, heval, htruthy⟩ :=
      runRetry_again front (hrun ▸ after)
    exact started _ _ rfl rfl nofun
      (.again going here hstmt heval htruthy left (toNat_succ_of_lt left))

/-- Frames are moved around. What is asked in each case is which frames are new on top: `after` has
the stack afterwards, and `cut` says that its lower part stood at the same heights before. -/
theorem shift_retryStep {store : Store σ} {before frames : List Frame} (going : m.pending = none)
    (front : m.activations = ⟨u, before, subroutines, saved⟩ :: callers)
    (shifts : Frame.Shift env.program u before frames)
    (hr : m.tick env = (.running, { m with store }.withFrames frames))
    (frame : kindAt? (m.tick env).2.activations spot = some (.retry place phase attempt max))
    (late : phase ≠ .enter) : RetryStep env m spot place phase attempt max := by
  have after : (m.tick env).2.activations = ⟨u, frames, subroutines, saved⟩ :: callers := by
    rw [hr]
    exact withFrames_activations (m := { m with store }) front frames
  have cut : ∀ above below, before = above ++ below →
      Within (⟨u, below, subroutines, saved⟩ :: callers) m.activations := by
    intro above below hbefore
    rw [front, hbefore]
    exact Within.cutTop u above below subroutines saved callers
  cases shifts with
  -- only a list of results has changed, and heights do not depend on it
  | hold kind replay replay' below =>
    refine .stay going frame ?_
    rw [after] at frame
    rw [front]
    exact Within.hold u kind replay replay' below subroutines saved callers spot _ frame
  -- the frame on top is that of a block
  | @pass path next stmt hstmt simple replay replay' below =>
    refine .push_plain [_] below going (cut [_] below rfl) after frame late ?_
    exact List.forall_mem_singleton.mpr id
  -- a retry that is entered stands at its entry, so it is none of those that the list is about
  | @enter path next stmt hstmt structured replay below =>
    refine .push_plain (Frame.enter stmt ⟨path, next⟩ ++ [⟨.block path (next + 1), replay⟩])
      below going (cut [_] below rfl) ?_ frame late ?_
    · rw [after, List.append_assoc]
      rfl
    · refine List.forall_mem_append.mpr ⟨?_, List.forall_mem_singleton.mpr id⟩
      unfold Frame.enter
      split <;> simp [Frame.new, Frame.block, FrameKind.PastEntry]
  -- the one shift that can start a body
  | @start place' stmt sel b kind kind' hstmt hb starts replay below =>
    refine start_retryStep going starts front (by rw [hr]) ?_ after frame late
    rw [hr]
    exact (pending_withFrames _ _).trans going
  -- a body is done; if it was that of a retry, this is the frame that is asked for, or one under it
  | @turn kind kind' turns replay below =>
    have plain : ¬ kind'.PastEntry → RetryStep env m spot place phase attempt max := by
      intro hplain
      refine .push_plain [_] below going (cut [_] below rfl) after frame late ?_
      exact List.forall_mem_singleton.mpr hplain
    cases turns with
    | cycle => exact plain id
    | doCycle => exact plain id
    | retry place' attempt' max' =>
      refine .push [_] below going (cut [_] below rfl) after frame ?_
      intro i f hspot hf hkind
      obtain rfl : i = 0 := Nat.lt_one_iff.mp (lt_of_fromBottom hf)
      cases hf
      cases hkind
      refine .turned ?_ ?_
      · rw [front, hspot]
        exact kindAt?_top u [] _ below subroutines saved callers
      -- behind its body a retry tests, and one whose body starts is in its body
      · intro starts
        obtain ⟨attempt', max', hbody⟩ := starts.frame
        rw [frame] at hbody
        cases hbody
  -- nothing is put on top
  | leave f =>
    exact .push_plain [] frames going (cut [f] frames rfl) after frame late (List.forall_mem_nil _)

/-- A simple statement is done. It changes the stacks by a jump or a return, if at all, and then
either all frames were there before, or those on top come from the jump. -/
theorem ran_retryStep {path : BlockPath} {next : Nat} {replay replay' : List Value}
    {below : List Frame} {stmt : Stmt} {store : Store σ} {line : Line} {effect : Effect}
    (going : m.pending = none)
    (front : m.activations =
      ⟨u, ⟨.block path next, replay⟩ :: below, subroutines, saved⟩ :: callers)
    (hstmt : env.program.stmt? u ⟨path, next⟩ = some stmt) (asks : stmt.Yields effect)
    (hr : m.tick env =
      ({ m with store }.withFrames (⟨.block path (next + 1), replay'⟩ :: below)).apply env
        line effect)
    (frame : kindAt? (m.tick env).2.activations spot = some (.retry place phase attempt max))
    (late : phase ≠ .enter) : RetryStep env m spot place phase attempt max := by
  have hpassed :
      ({ m with store }.withFrames (⟨.block path (next + 1), replay'⟩ :: below)).activations =
      ⟨u, ⟨.block path (next + 1), replay'⟩ :: below, subroutines, saved⟩ :: callers :=
    withFrames_activations (m := { m with store }) front _
  -- a retry that stands behind the statement stood there before it
  have passed : ∀ spot : Height,
      kindAt? (⟨u, [⟨.block path (next + 1), replay'⟩] ++ below, subroutines, saved⟩ ::
          callers) spot = some (.retry place phase attempt max) →
      kindAt? m.activations spot = some (.retry place phase attempt max) := by
    intro spot h
    rw [front]
    obtain hbelow | ⟨i, f, -, hf, hkind⟩ := kindAt?_push h
    · exact Within.cutTop u [_] below subroutines saved callers spot _ hbelow
    · cases List.mem_singleton.mp (mem_of_fromBottom hf)
      cases hkind
  obtain within | ⟨label, target, root, frames, older, hasks, hlabel, hroot, hframes, hafter,
    within⟩ := apply_within env hpassed line effect
  · rw [← hr, hpassed] at within
    exact .stay going frame (passed spot (within spot _ frame))
  rw [← hr] at hafter
  rw [hpassed] at within
  have hpush := frame
  rw [hafter, ← List.append_nil frames] at hpush
  obtain hbelow | ⟨i, f, hspot, -⟩ := kindAt?_push hpush
  · exact .stay going frame (passed spot (within spot _ hbelow))
  · have hyields : stmt.Yields (.jump label) ∨ stmt.Yields (.sub label) := by
      obtain rfl | rfl := hasks
      · exact .inl asks
      · exact .inr asks
    have jump : Jumped env m spot := .mk going front hstmt hyields hlabel hroot hframes hafter
      ⟨congrArg Height.callers hspot, congrArg Height.older hspot⟩
    obtain ⟨⟨rfl, rfl, rfl⟩, quiet⟩ := jump.retry frame
    exact .jumped jump quiet

/-- An evaluation stopped. The function that it calls starts with a block, and a fault changes no
frame. -/
theorem stopped_retryStep {kind : FrameKind} {replay replay' : List Value} {below : List Frame}
    {store : Store σ} {line : Line} {i : Interrupt} (going : m.pending = none)
    (front : m.activations = ⟨u, ⟨kind, replay⟩ :: below, subroutines, saved⟩ :: callers)
    (hr : m.tick env = (.running,
      ({ m with store }.withFrames (⟨kind, replay'⟩ :: below)).interrupt env line i))
    (frame : kindAt? (m.tick env).2.activations spot = some (.retry place phase attempt max))
    (late : phase ≠ .enter) : RetryStep env m spot place phase attempt max := by
  have hheld : ({ m with store }.withFrames (⟨kind, replay'⟩ :: below)).activations =
      ⟨u, ⟨kind, replay'⟩ :: below, subroutines, saved⟩ :: callers :=
    withFrames_activations (m := { m with store }) front _
  have within : Within ({ m with store }.withFrames (⟨kind, replay'⟩ :: below)).activations
      m.activations := by
    rw [hheld, front]
    exact Within.hold u kind replay replay' below subroutines saved callers
  obtain hsame | ⟨name, shadowed, hcall⟩ :=
    interrupt_leaves env ({ m with store }.withFrames (⟨kind, replay'⟩ :: below)) line i
  · refine .stay going frame ?_
    rw [hr, hsame] at frame
    refine Within.trans ?_ within spot _ frame
    exact Within.mapFrame (g := fun f => { f with replay := [] }) (fun _ => rfl) _
  · refine .push_plain [Frame.block [] 0] [] going
      ((Within.fresh (.function name) shadowed _).trans within) ?_ frame late ?_
    · rw [hr]
      exact hcall
    · exact List.forall_mem_singleton.mpr id

/-- A fault ends the run, or goes astray, or starts the handler that is found. The handler may be a
retry itself, and the frame that took the fault is then the one that is asked for, one attempt
further. -/
theorem unwind_retryStep {failure : Failure} (pending : m.pending = some failure)
    (hr : m.tick env = m.unwind env failure)
    (frame : kindAt? (m.tick env).2.activations spot = some (.retry place phase attempt max)) :
    RetryStep env m spot place phase attempt max := by
  obtain hnil | hsame | ⟨c, hfind, hacts, hcalm⟩ := unwind_cases env m failure
  · rw [hr, hnil] at frame
    cases frame
  · rw [← hr] at hsame
    exact .same hsame frame
  rw [← hr] at hacts hcalm
  obtain ⟨inner, act, newer, above, f, hm, hstacks, hf, -⟩ := findCaught_ok hfind
  obtain ⟨handler, ⟨u, below, older, saved⟩, callers, scope⟩ := c
  have within : Within (⟨u, f :: below, older, saved⟩ :: callers) m.activations := by
    rw [hm]
    exact Within.cut hstacks u saved inner callers
  have hpush := frame
  rw [hacts] at hpush
  obtain hbelow | ⟨i, g, hspot, hg, hkind⟩ := kindAt?_push hpush
  · -- the frame lies under the handler, so what starts is not its body
    refine .kept (((Within.cutTop u [f] below older saved callers).trans within) spot _ hbelow) ?_
    intro starts
    obtain ⟨u', below', older', saved', callers', hfront, habove⟩ := starts.front
    obtain ⟨path, g, hframes⟩ := handler.frames_eq
    rw [hacts, hframes] at hfront
    cases hfront
    rw [Height.eq_of_above habove] at hbelow
    cases (kindAt?_beyond 0).symm.trans hbelow
  -- of the two frames on top the lower one belongs to the handler, and the upper one is a block
  · cases handler with
    | tryCatch place' =>
      obtain ⟨rfl, rfl⟩ | ⟨rfl, rfl⟩ := fromBottom_pair hg <;> cases hkind
    | retry place' attempt' max' =>
      obtain ⟨rfl, rfl⟩ | ⟨rfl, rfl⟩ := fromBottom_pair hg
      · cases hkind
        subst hspot
        obtain ⟨hf, left⟩ := retry_of_handler? hf
        refine .caught pending ?_ left (toNat_succ_of_lt left)
          (.of_push hacts (hcalm _ _ _ rfl) (.inl ?_))
        · rw [← hf]
          exact within _ _ (kindAt?_top u [] f below older saved callers)
        · rw [pending]
          exact Option.some_ne_none _
      · cases hkind

/-- **A micro-step does to a retry what the list says**, and nothing else. The frame after it is
given, live or put aside or under other units, and past its entry. -/
theorem retry_step
    (frame : kindAt? (m.tick env).2.activations spot = some (.retry place phase attempt max))
    (late : phase ≠ .enter) : RetryStep env m spot place phase attempt max := by
  have ticked := tick_ticked env m
  generalize hr : m.tick env = r at ticked
  cases ticked with
  | astray => exact .same (congrArg Prod.snd hr) frame
  | cancelled =>
    rw [hr] at frame
    cases frame
  | unwind pending => exact unwind_retryStep pending hr frame
  | idle going nothing =>
    rw [hr, nothing] at frame
    cases frame
  | ended =>
    rw [hr] at frame
    cases frame
  | @back name subroutines saved callers going front =>
    refine .stay going frame ?_
    rw [hr, returnFromFunction_activations front] at frame
    rw [front]
    refine Within.trans ?_ (Within.drop [_] callers) spot _ frame
    exact Within.mapFrame (g := fun f => { f with replay := f.replay ++ [.null] }) (fun _ => rfl) _
  | moved going same frames front shifts => exact shift_retryStep going front shifts hr frame late
  | ran going front hstmt hexec hresult =>
    exact ran_retryStep going front hstmt (Stmt.yields_of_execute hexec hresult) hr frame late
  | stopped going front => exact stopped_retryStep going front hr frame late

/-- Why a body starts: its retry leaves the entry, or makes another attempt after a test or a fault.
What the frame was before is part of it, so that a life can be continued. -/
theorem BodyStarts.cause (starts : BodyStarts env m spot place)
    (frame : kindAt? (m.tick env).2.activations spot = some (.retry place .body attempt max)) :
    (m.pending = none ∧ attempt = 1 ∧ 1 ≤ max.toNat ∧
      ∃ attempt₀ max₀,
        kindAt? m.activations spot = some (.retry place .enter attempt₀ max₀)) ∨
    ∃ phase attempt₀, kindAt? m.activations spot = some (.retry place phase attempt₀ max) ∧
      attempt₀ < max ∧ attempt.toNat = attempt₀.toNat + 1 ∧
      (phase = .test ∧ m.pending = none ∨ phase = .body ∧ m.pending ≠ none) := by
  cases retry_step frame nofun with
  | kept _ quiet => exact absurd starts quiet
  | jumped _ quiet => exact absurd starts quiet
  | first going front hstmt evaluates clamped =>
    exact .inl ⟨going, rfl, clamped.one_le, _, _, front.kindAt?⟩
  | again going front hstmt evaluates truthy left next =>
    exact .inr ⟨.test, _, front.kindAt?, left, next, .inl ⟨rfl, going⟩⟩
  | caught pending before left next =>
    refine .inr ⟨.body, _, before, left, next, .inr ⟨rfl, ?_⟩⟩
    rw [pending]
    exact Option.some_ne_none _

end

end Machine

end Stepwise
