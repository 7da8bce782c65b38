import Stepwise.Program.Link
import Stepwise.Proofs.Placement
import Stepwise.Proofs.Reachable

/-!
# Stacks are canonical

There are two ways to come by a stack of frames: to run into a position, and to jump there. The
stack is the same. **In every machine of every run each stack is the one that its innermost frame
determines**: that of the units that run, that of the units that wait for a function, and those that
subroutine calls put aside.

What a position determines is computed by `stackAt`, which builds a stack from the route to the
position and knows nothing of runs. Counters of retries and results of calls are no part of it; they
are left out by comparing the shapes of frames.

The invariant that is carried along a run is `Placed` and not `Canonical`. A placed stack is given
by rules that follow the position inwards, and these rules fit the moves of a machine one by one
(`Proofs/Placement`). Being canonical is read off at the end.
-/

namespace Stepwise

namespace Frame

/-- A stack that its innermost frame determines, but for counters and results of calls. A block has
the stack of its position around it, and a statement that of the position behind it. -/
def Canonical (root : Block) : List Frame → Prop
  | [] => True
  | ⟨.block path next, _⟩ :: below =>
    stackAt root path next = some (.block path next :: below.map shape)
  | ⟨.condition place _, _⟩ :: below | ⟨.cycle place _, _⟩ :: below
  | ⟨.doCycle place _, _⟩ :: below
  | ⟨.retry place _ _ _, _⟩ :: below | ⟨.tryCatch place _, _⟩ :: below =>
    stackAt root place.block (place.index + 1) = some (below.map shape)

/-- The five kinds of frames of statements are asked the same: the stack below is that of the
position behind the statement. -/
theorem canonical_of_place {root : Block} {kind : FrameKind} {place : StmtPath}
    (hplace : kind.place? = some place) (replay : List Value) (below : List Frame) :
    Canonical root (⟨kind, replay⟩ :: below) ↔
      stackAt root place.block (place.index + 1) = some (below.map shape) := by
  cases kind <;> cases hplace <;> exact Iff.rfl

theorem Placed.canonical {root : Block} {stack : List Frame} (h : Placed root stack) :
    Canonical root stack := by
  cases h with
  | ended => trivial
  | block inside next _ => exact inside.stackAt next
  | statement inside _ _ hplace replay replay' =>
    rw [canonical_of_place hplace]
    exact inside.stackAt _

end Frame

namespace Activation

/-- All stacks of an activation are canonical, and those put aside are not at their end. -/
def Canonical (p : Program) (act : Activation) : Prop :=
  ∃ root, p.unitRoot? act.unit = some root ∧ Frame.Canonical root act.frames ∧
    ∀ stack ∈ act.subroutines, Frame.Canonical root stack ∧ stack ≠ []

/-- A placed activation is canonical. The stacks that are put aside are never at their end, because
a subroutine call leaves its block at the next statement. -/
theorem Placed.canonical {p : Program} {act : Activation} (h : act.Placed p) : act.Canonical p := by
  obtain ⟨root, hact⟩ := h
  refine ⟨root, hact.unit, hact.frames.canonical, fun stack hmem => ?_⟩
  obtain ⟨hstack, hne⟩ := hact.subroutines stack hmem
  exact ⟨hstack.canonical, hne⟩

end Activation

namespace Machine

variable {σ : Type} {env : Setting σ} {m : Machine σ}

/-- All units of a reachable machine are placed: a new machine has one frame at the start of its
main block, and every move keeps it. -/
theorem Reachable.placed (h : Reachable env m) :
    Activation.AllPlaced env.program m.activations := by
  refine h.activations ?_ fun _ _ moves hacts => moves.placed hacts
  exact Activation.AllPlaced.cons_iff.mpr ⟨Activation.placed_new rfl [], nofun⟩

/-- **All stacks of a run are canonical.** A stack is empty only if its unit ran off its end: then
the unit is the innermost, and the stack is its current one. -/
theorem stacks_canonical (h : Reachable env m) :
    (∀ act ∈ m.activations, act.Canonical env.program) ∧
      ∀ act ∈ m.activations.tail, act.frames ≠ [] :=
  ⟨fun act hmem => (h.placed.placed act hmem).canonical, h.placed.waiting⟩

/-- A loop in a try statement calls a subroutine that stands in a retry in a condition, and the
subroutine calls a function. -/
def nesting : Block :=
  .mk
    [.function "ask" [] (.mk [.noop 2] 1 3) 1,
      .tryCatch (.mk [.cycle (.bool true 5) (.mk [.gosub "inner" 6] 5 7) 5] 4 8) none
        (.mk [] 8 9) 4,
      .condition
        [.mk (.bool false 10)
          (.mk
            [.retry (.num 3.0 11) (.mk [.label "inner" 12, .call "ask" [] 13] 11 14) none 11]
            10 15)]
        none 10]
    0 16

/-- The stack of the loop was run into, and that of the subroutine was jumped to. -/
theorem stacks_canonical_nesting :
    let env : Setting Unit := ⟨Program.link nesting, .default, .null ""⟩
    let m := (Machine.new .empty ()).ticks env 6
    (m.activations.map fun act =>
        (act.unit, act.frames.map Frame.shape, act.subroutines.map (List.map Frame.shape))) =
      [(.function "ask", [.block [] 0], []),
        (.main,
          [.block [(2, .branch 0), (0, .body)] 1, .retry ⟨[(2, .branch 0)], 0⟩ .body 0 0,
            .block [(2, .branch 0)] 1, .condition ⟨[], 2⟩ .branch, .block [] 3],
          [[.block [(1, .body), (0, .body)] 1, .cycle ⟨[(1, .body)], 0⟩ .body,
            .block [(1, .body)] 1, .tryCatch ⟨[], 1⟩ .body, .block [] 2]])] ∧
    Reachable env m ∧
    (∀ act ∈ m.activations, act.Canonical env.program) ∧
      ∀ act ∈ m.activations.tail, act.frames ≠ [] := by
  intro env m
  have h : Reachable env m := (Reachable.new .empty ()).ticks 6
  exact ⟨by decide +kernel, h, stacks_canonical h⟩

end Machine

end Stepwise
