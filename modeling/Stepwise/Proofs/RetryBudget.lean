import Stepwise.Proofs.Constants
import Stepwise.Proofs.RetrySteps

/-!
# The attempts of a retry

`Lives` follows the frame of a retry from the moment at which it got its number of attempts, through
everything that runs on top of it, and counts how often its body was started. **A retry never
exceeds its budget** (`retry_budget`): the number that the frame shows is this count, and it is at
most the number of attempts.

`Proofs/RetrySteps` has one micro-step. Here the steps are put together, and the count is made by
looking at the run from outside: `BodyStarts` is about the statement that comes to the front, and
not about the counter. So the theorem is no statement about a counter that is compared with itself.

A frame is known by its height, the number of callers, older stacks and frames under it. That is
enough to speak of one frame along a run: what is under it cannot change while it stands, and where
another retry comes to stand at the same height, its life starts over.
-/

namespace Stepwise

open Relation Activation

namespace Machine

variable {σ : Type} {env : Setting σ} {m : Machine σ} {spot : Height} {place : StmtPath}
  {phase : RetryPhase} {attempt max : UInt32}

/-! ## Along a run -/

/-- The frame of a retry has stood at this height since it got its number of attempts, or since a
jump made it. Its body was started that often, a jump into it counted. A life goes on through
micro-steps that start the body and through those that do not, and through what the owner does. -/
inductive Lives (env : Setting σ) (spot : Height) (place : StmtPath) :
    Nat → UInt32 → Machine σ → Prop where
  | first {m : Machine σ} {attempt₀ max₀ attempt max : UInt32}
      (before : kindAt? m.activations spot = some (.retry place .enter attempt₀ max₀))
      (starts : BodyStarts env m spot place)
      (frame : kindAt? (m.tick env).2.activations spot = some (.retry place .body attempt max)) :
      Lives env spot place 1 max (m.tick env).2
  | jumped {m : Machine σ} {phase : RetryPhase} {attempt max : UInt32} (jump : Jumped env m spot)
      (frame : kindAt? (m.tick env).2.activations spot = some (.retry place phase attempt max)) :
      Lives env spot place 1 1 (m.tick env).2
  | again {m : Machine σ} {n : Nat} {max : UInt32} (lives : Lives env spot place n max m)
      (starts : BodyStarts env m spot place) : Lives env spot place (n + 1) max (m.tick env).2
  | goes {m : Machine σ} {n : Nat} {phase : RetryPhase} {attempt max max' : UInt32}
      (lives : Lives env spot place n max m) (quiet : ¬ BodyStarts env m spot place)
      (stays : ¬ Jumped env m spot)
      (frame : kindAt? (m.tick env).2.activations spot = some (.retry place phase attempt max'))
      (late : phase ≠ .enter) : Lives env spot place n max (m.tick env).2
  /-- The owner does something, which is not about frames. -/
  | waits {m m' : Machine σ} {n : Nat} {max : UInt32} (lives : Lives env spot place n max m)
      (act : Acts env m m') (same : m'.activations = m.activations) : Lives env spot place n max m'

theorem Lives.one_le {n : Nat} (lives : Lives env spot place n max m) : 1 ≤ n := by
  induction lives with
  | first => exact Nat.le_refl 1
  | jumped => exact Nat.le_refl 1
  | again _ _ ih => exact Nat.le_succ_of_le ih
  | goes _ _ _ _ _ ih => exact ih
  | waits _ _ _ ih => exact ih

/-- **The frame counts the starts of its body**, and there are no more of them than the number of
attempts that it got once and for all. The induction is on the life, and each step of it is looked
up in `RetryStep`. -/
theorem Lives.frame {n : Nat} (lives : Lives env spot place n max m) :
    n ≤ max.toNat ∧ ∃ phase attempt, phase ≠ .enter ∧ attempt.toNat = n ∧
      kindAt? m.activations spot = some (.retry place phase attempt max) := by
  induction lives with
  | first before starts frame =>
    -- it was at its entry, so the start cannot be a further attempt
    obtain ⟨-, rfl, hmax, -⟩ | ⟨phase, attempt', before', -, -, hphase⟩ :=
      starts.cause frame
    · exact ⟨hmax, .body, 1, nofun, rfl, frame⟩
    · rw [before] at before'
      cases before'
      obtain ⟨hphase, -⟩ | ⟨hphase, -⟩ := hphase <;> cases hphase
  | jumped jump frame =>
    obtain ⟨⟨rfl, rfl, rfl⟩, -⟩ := jump.retry frame
    exact ⟨Nat.le_refl 1, .body, 1, nofun, rfl, frame⟩
  | again lives starts ih =>
    obtain ⟨hle, phase, attempt, late, hattempt, hframe⟩ := ih
    obtain ⟨attempt', max', hframe'⟩ := starts.frame
    obtain ⟨-, -, -, attempt₀, max₀, before⟩ |
      ⟨phase', attempt₀, before, left, next, -⟩ := starts.cause hframe'
    · rw [hframe] at before
      cases before
      exact absurd rfl late
    · rw [hframe] at before
      cases before
      have hlt := UInt32.lt_iff_toNat_lt.mp left
      exact ⟨by omega, .body, attempt', nofun, by omega, hframe'⟩
  | goes lives quiet stays frame late ih =>
    -- no start and no jump: the frame was kept, or its body is done
    obtain ⟨hle, phase, attempt, -, hattempt, hframe⟩ := ih
    have hstep := retry_step frame late
    cases hstep with
    | kept before =>
      rw [before] at hframe
      cases hframe
      exact ⟨hle, _, _, late, hattempt, frame⟩
    | turned before =>
      rw [before] at hframe
      cases hframe
      exact ⟨hle, _, _, late, hattempt, frame⟩
    | jumped jump => exact absurd jump stays
    | first _ _ _ _ _ starts => exact absurd starts quiet
    | again _ _ _ _ _ _ _ starts => exact absurd starts quiet
    | caught _ _ _ _ starts => exact absurd starts quiet
  | waits lives act same ih =>
    rw [same]
    exact ih

/-- Every retry past its entry came there in one of these ways. It is the converse of the lemma
before, and shows that lives are not rare. -/
theorem Reachable.lives (h : Reachable env m)
    (frame : kindAt? m.activations spot = some (.retry place phase attempt max))
    (late : phase ≠ .enter) :
    Lives env spot place attempt.toNat max m := by
  induction h using Reachable.run_induction generalizing phase attempt max with
  -- a run starts with the frame of a block alone
  | new =>
    have hnew : kindAt? [⟨.main, [Frame.block [] 0] ++ [], [], []⟩] spot =
        some (.retry place phase attempt max) := frame
    obtain hbelow | ⟨i, f, -, hf, hkind⟩ := kindAt?_push hnew
    · cases Within.fresh _ _ _ spot _ hbelow
    · cases List.mem_singleton.mp (mem_of_fromBottom hf)
      cases hkind
  | @act m m' _ hact ih =>
    cases hact with
    | tick =>
      -- a jump may bring the same counts to the same height as before, and is no life that goes on
      by_cases jump : Jumped env m spot
      · obtain ⟨⟨rfl, rfl, rfl⟩, -⟩ := jump.retry frame
        exact .jumped jump frame
      cases retry_step frame late with
      | kept before quiet => exact .goes (ih before late) quiet jump frame late
      | turned before quiet => exact .goes (ih before nofun) quiet jump frame late
      | jumped jump' => exact absurd jump' jump
      | first going front hstmt evaluates clamped starts => exact .first front.kindAt? starts frame
      | again going front hstmt evaluates truthy left next starts =>
        rw [next]
        exact .again (ih front.kindAt? nofun) starts
      | caught pending before left next starts =>
        rw [next]
        exact .again (ih before nofun) starts
    | finish finished => exact .waits (ih frame late) (.finish finished) rfl
    | handled h =>
      rw [h.activations] at frame
      exact .waits (ih frame late) (.handled h) h.activations

/-! ## Frames that start no body -/

/-- A retry that has made all its attempts starts no other. Both ways to start a body again ask for
an attempt that is left. -/
theorem not_bodyStarts_of_spent
    (frame : kindAt? m.activations spot = some (.retry place phase attempt max))
    (late : phase ≠ .enter) (spent : ¬ attempt < max) : ¬ BodyStarts env m spot place := by
  intro starts
  obtain ⟨attempt', max', hframe⟩ := starts.frame
  obtain ⟨-, -, -, attempt₀, max₀, before⟩ | ⟨phase', attempt₀, before, left, -⟩ :=
    starts.cause hframe
  · rw [frame] at before
    cases before
    exact late rfl
  · rw [frame] at before
    cases before
    exact spent left

/-- A fault starts no body of a retry that is not running it. A retry at its entry or at its test is
no handler, so the search for one passes it. -/
theorem not_bodyStarts_of_pending
    (frame : kindAt? m.activations spot = some (.retry place phase attempt max))
    (header : phase ≠ .body) (pending : m.pending ≠ none) : ¬ BodyStarts env m spot place := by
  intro starts
  obtain ⟨attempt', max', hframe⟩ := starts.frame
  obtain ⟨going, -⟩ | ⟨phase', attempt₀, before, -, -, hphase⟩ := starts.cause hframe
  · exact pending going
  · rw [frame] at before
    cases before
    obtain ⟨-, going⟩ | ⟨hbody, -⟩ := hphase
    · exact pending going
    · exact header hbody

/-- A retry whose header fails stays as it is. All other ways a micro-step can go leave no fault
behind, or did not evaluate a header. -/
theorem kindAt?_of_header_fault {u : CodeUnit} {replay : List Value}
    (looks : m.LooksAt spot u ⟨.retry place phase attempt max, replay⟩)
    (going : m.pending = none) (raised : (m.tick env).2.pending ≠ none) :
    kindAt? (m.tick env).2.activations spot = some (.retry place phase attempt max) := by
  have before := looks.kindAt?
  obtain ⟨below, older, saved, callers, hacts, hspot⟩ := looks
  have ticked := tick_ticked env m
  generalize hr : m.tick env = r at ticked raised
  cases ticked with
  | astray => exact before
  | cancelled => exact absurd rfl raised
  | unwind pending =>
    rw [going] at pending
    cases pending
  | idle => exact absurd going raised
  | ended => exact absurd rfl raised
  | back => exact absurd ((pending_returnFromFunction m _).trans going) raised
  | moved =>
    refine absurd ?_ raised
    exact (pending_withFrames _ _).trans going
  -- statements are run by blocks, and a retry is in front
  | ran _ front =>
    rw [hacts] at front
    cases front
  | @stopped u' kind replay' replay'' below' older' saved' callers' store line i _ front =>
    rw [hacts] at front
    cases front
    refine within_interrupt env _ line i spot _ ?_
    rw [withFrames_activations (m := { m with store }) hacts, hspot]
    exact kindAt?_top u [] _ below older saved callers

/-- **A retry never exceeds its budget**, along every run of every program. Every frame has a
height. A retry past its entry, live or put aside, is at an attempt between one and its number of
attempts, and has lived as long as the attempt says. In a micro-step nothing happens to it but what
`RetryStep` lists: only leaving the entry sets the number of attempts, and every other start of the
body counts up by one while there are attempts left. So the body is started no more often than that
number says; what has no attempts left is not started again, and a jump makes frames that have none.
A fault in a header starts no body: not when it is raised, not when it is dealt with, and not if it
comes out of a function that the header called. -/
theorem retry_budget (env : Setting σ) {m : Machine σ} (reached : Reachable env m) :
    (∀ act ∈ m.activations, ∀ stack ∈ act.frames :: act.subroutines, ∀ f ∈ stack,
      ∃ spot, kindAt? m.activations spot = some f.kind) ∧
    (∀ spot place phase attempt max,
      kindAt? m.activations spot = some (.retry place phase attempt max) → phase ≠ .enter →
      1 ≤ attempt.toNat ∧ attempt.toNat ≤ max.toNat ∧ max.toNat ≤ 4294967295 ∧
        Lives env spot place attempt.toNat max m) ∧
    (∀ spot place phase attempt max,
      kindAt? (m.tick env).2.activations spot = some (.retry place phase attempt max) →
        phase ≠ .enter →
      RetryStep env m spot place phase attempt max) ∧
    (∀ spot place n max, Lives env spot place n max m →
      n ≤ max.toNat ∧ ∃ phase attempt, phase ≠ .enter ∧ attempt.toNat = n ∧
        kindAt? m.activations spot = some (.retry place phase attempt max)) ∧
    (∀ spot place phase attempt max,
      kindAt? m.activations spot = some (.retry place phase attempt max) → phase ≠ .enter →
      ¬ attempt < max → ¬ BodyStarts env m spot place) ∧
    (∀ spot place phase attempt max, Jumped env m spot →
      kindAt? (m.tick env).2.activations spot = some (.retry place phase attempt max) →
      phase = .body ∧ attempt = 1 ∧ max = 1) ∧
    (∀ spot place phase attempt max,
      kindAt? m.activations spot = some (.retry place phase attempt max) → phase ≠ .body →
      m.pending ≠ none → ¬ BodyStarts env m spot place) ∧
    (∀ spot u place phase attempt max replay,
      m.LooksAt spot u ⟨.retry place phase attempt max, replay⟩ → phase ≠ .body →
      m.pending = none → (m.tick env).2.pending ≠ none →
      kindAt? (m.tick env).2.activations spot = some (.retry place phase attempt max) ∧
        ¬ BodyStarts env m spot place ∧ ¬ BodyStarts env (m.tick env).2 spot place) := by
  refine ⟨?_, ?_, ?_, ?_, ?_, ?_, ?_, ?_⟩
  · intro act hact stack hstack f hf
    exact exists_kindAt? hact hstack hf
  -- a life counts the starts of the body, which gives the bounds on the attempt
  · intro spot place phase attempt max frame late
    have lives := reached.lives frame late
    have hmax := max.toNat_lt
    exact ⟨lives.one_le, lives.frame.1, by omega, lives⟩
  · intro spot place phase attempt max frame late
    exact retry_step frame late
  · intro spot place n max lives
    exact lives.frame
  · intro spot place phase attempt max frame late spent
    exact not_bodyStarts_of_spent frame late spent
  · intro spot place phase attempt max jump frame
    exact (jump.retry frame).1
  · intro spot place phase attempt max frame header pending
    exact not_bodyStarts_of_pending frame header pending
  -- the frame stays where it is, and a fault is pending behind the micro-step as well
  · intro spot u place phase attempt max replay looks header going raised
    have frame := kindAt?_of_header_fault looks going raised
    refine ⟨frame, ?_, not_bodyStarts_of_pending frame header raised⟩
    intro starts
    exact raised starts.going

/-- A retry calls a subroutine that fails. -/
def flaky : Block :=
  .mk
    [.retry (.num 2.9 1) (.mk [.gosub "sub" 2] 1 3) (some (.bool true 4)) 1,
      .label "sub" 5,
      .throw (.bool true 6) 6]
    0 7

/-- In its second subroutine call the retry is put aside with both of its attempts made. -/
theorem retry_budget_flaky :
    let env : Setting Unit := ⟨Program.link flaky, .default, .null ""⟩
    let m := (Machine.new (.ofInputs []) ()).ticks env 6
    m.activations.map (fun act => act.subroutines.length) = [1] ∧
    kindAt? m.activations ⟨0, 0, 1⟩ = some (.retry ⟨[], 0⟩ .body 2 2) ∧
    Lives env ⟨0, 0, 1⟩ ⟨[], 0⟩ 2 2 m := by
  intro env m
  have haside : m.activations.map (fun act => act.subroutines.length) = [1] := by decide +kernel
  have hframe : kindAt? m.activations ⟨0, 0, 1⟩ = some (.retry ⟨[], 0⟩ .body 2 2) := by
    decide +kernel
  have hreach : Reachable env m := (Reachable.new (.ofInputs []) ()).ticks 6
  clear_value m
  obtain ⟨-, hbounds, -⟩ := retry_budget env hreach
  obtain ⟨-, -, -, hlives⟩ := hbounds _ _ _ _ _ hframe nofun
  exact ⟨haside, hframe, hlives⟩

end Machine

end Stepwise
