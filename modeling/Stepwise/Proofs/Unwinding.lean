import Stepwise.Proofs.Ending
import Stepwise.Proofs.Parameters

/-!
# The way of a fault

A fault goes outwards: through the frames of the unit in front, through the stacks that its
subroutine calls have put aside, the latest first, and on through the units that wait for it.
`outward` lists all frames of a machine in this order. The search for a handler takes these stacks
apart in nested loops, but what it comes to is read off the list: **the first frame that takes the
fault is where the run goes on, and nothing under it has changed** (`innermost_handles`). If there
is none, the run fails with that very fault.

## The specification

Which frames take a fault is said by `FrameKind.Catches`, without the handlers that the machine
looks for: a try statement takes one in its body but not in its handler, and a retry in its body as
long as attempts are left. A `Stage` is a place in the stacks of a machine. It splits the units, the
stacks of one unit and the frames of one stack at the same time, so it also says what lies under the
frame. `Stage.Innermost` is a stage whose frame takes the fault while no frame on the way does.

What becomes of the machine is a relation (`Resumes`) with a case for each way in which a frame can
take a fault. All cases build on one machine, `Stage.resumed`, which has everything in front of the
frame cut off and the variables of the functions that were left put back.

## Layout

The first section shows that the list and the stages fit together, and that there is a first frame
wherever there is one at all. Then the search is shown to skip what does not take the fault, loop by
loop, from the inside out. The last section adds what only the machines of a run have: the main
program is outermost, and the frame of a try statement stands at a try statement.

Faults that cannot be caught are not spoken of here; they end a run in any state.
-/

namespace Stepwise

open Relation Activation

/-! ## Frames that take a fault

The machine keeps no list of handlers. Which frames take a fault is seen from their kind, and where
the innermost of them stands is said by splitting the stacks around it. -/

namespace FrameKind

/-- A frame that takes a fault: that of a try statement that runs its body, or of a retry that runs
its body and has attempts left. -/
inductive Catches : FrameKind → Prop where
  | tryCatch (place : StmtPath) : Catches (.tryCatch place .body)
  | retry (place : StmtPath) {attempt max : UInt32} (left : attempt < max) :
      Catches (.retry place .body attempt max)

end FrameKind

namespace Frame

/-- The frames that take a fault are those in which the search finds a handler. -/
theorem catches_iff {f : Frame} : f.kind.Catches ↔ ∃ h, f.handler? = some h := by
  obtain ⟨kind, replay⟩ := f
  constructor
  · intro h
    cases h with
    | tryCatch place => exact ⟨_, rfl⟩
    | retry place left => exact ⟨_, if_pos left⟩
  · rintro ⟨h, hh⟩
    cases kind with
    | tryCatch place phase =>
      cases phase with
      | body => exact .tryCatch place
      | handler => cases hh
    | retry place phase attempt max =>
      cases phase with
      | body =>
        by_cases left : attempt < max
        · exact .retry place left
        · simp [handler?, left] at hh
      | enter => cases hh
      | test => cases hh
    | block => cases hh
    | condition => cases hh
    | cycle => cases hh
    | doCycle => cases hh

theorem handler?_eq_none {f : Frame} (h : ¬ f.kind.Catches) : f.handler? = none := by
  rw [catches_iff, ← Option.isSome_iff_exists, Bool.not_eq_true, Option.isSome_eq_false_iff,
    Option.isNone_iff_eq_none] at h
  exact h

end Frame

instance (kind : FrameKind) : Decidable kind.Catches :=
  decidable_of_iff ((Frame.new kind).handler?.isSome = true)
    (Option.isSome_iff_exists.trans Frame.catches_iff.symm)

/-- All frames, in the order in which a fault comes to them: unit by unit, and in each the stack in
front before those that are put aside. -/
def Activation.outward (acts : List Activation) : List Frame :=
  acts.flatMap fun act => (act.frames :: act.subroutines).flatten

/-- If some entry of a list has a property, there is a first one, and the list splits there. -/
theorem exists_first {α : Type} {P : α → Prop} {l : List α} (h : ∃ x ∈ l, P x) :
    ∃ before x after, l = before ++ x :: after ∧ P x ∧ ∀ y ∈ before, ¬ P y := by
  classical
  have hfind : (l.find? fun x => P x).isSome = true := by simpa [List.find?_isSome] using h
  obtain ⟨x, hx⟩ := Option.isSome_iff_exists.mp hfind
  obtain ⟨hP, before, after, hl, hbefore⟩ := List.find?_eq_some_iff_append.mp hx
  exact ⟨before, x, after, hl, by simpa using hP, by simpa using hbefore⟩

/-- A frame of a machine, with what a fault passes on its way there, and with what lies under it.
The parts are named from the frame outwards, and none of them is a field of the machine. -/
structure Stage where
  /-- The units in front of the one that the frame is in. -/
  inner : List Activation
  act : Activation
  callers : List Activation
  /-- The stacks of its unit that the fault passes. -/
  newer : List (List Frame)
  older : List (List Frame)
  above : List Frame
  frame : Frame
  below : List Frame

namespace Stage

/-- The frames that the fault has passed when it comes to this one. -/
def passed (s : Stage) : List Frame := outward s.inner ++ (s.newer.flatten ++ s.above)

/-- The frames that it would come to next. -/
def under (s : Stage) : List Frame := s.below ++ (s.older.flatten ++ outward s.callers)

/-- This frame of the machine takes a fault, and none before it does. The two equations put the
frame in its stack and the stack in its unit; `first` is about the list. -/
structure Innermost (s : Stage) (acts : List Activation) : Prop where
  units : acts = s.inner ++ s.act :: s.callers
  split : s.act.frames :: s.act.subroutines = s.newer ++ (s.above ++ s.frame :: s.below) :: s.older
  catches : s.frame.kind.Catches
  first : ∀ f ∈ s.passed, ¬ f.kind.Catches

variable {s : Stage} {acts : List Activation}

/-- A stage splits the list of frames, so what it calls passed comes before the frame in the
list. -/
theorem Innermost.outward_eq (h : s.Innermost acts) :
    outward acts = s.passed ++ s.frame :: s.under := by
  have hact : (s.act.frames :: s.act.subroutines).flatten =
      s.newer.flatten ++ (s.above ++ s.frame :: (s.below ++ s.older.flatten)) := by
    rw [h.split]
    simp
  rw [h.units, outward, List.flatMap_append, List.flatMap_cons, hact]
  simp [passed, under, outward]

/-- If some frames take a fault, one of them is the first. The list has forgotten units and stacks,
so the first one is looked for three times, with the property of holding such a frame. -/
theorem exists_innermost (h : ∃ f ∈ outward acts, f.kind.Catches) :
    ∃ s : Stage, s.Innermost acts := by
  -- the first unit that has such a frame, in it the first stack, and in that the first frame
  have hunit : ∃ act ∈ acts, ∃ f ∈ (act.frames :: act.subroutines).flatten,
      f.kind.Catches := by
    obtain ⟨f, hf, hcatches⟩ := h
    obtain ⟨act, hact, hf⟩ := List.mem_flatMap.mp hf
    exact ⟨act, hact, f, hf, hcatches⟩
  obtain ⟨inner, act, callers, hacts, hact, hinner⟩ := exists_first hunit
  have hstack : ∃ stack ∈ act.frames :: act.subroutines, ∃ f ∈ stack, f.kind.Catches := by
    obtain ⟨f, hf, hcatches⟩ := hact
    obtain ⟨stack, hstack, hf⟩ := List.mem_flatten.mp hf
    exact ⟨stack, hstack, f, hf, hcatches⟩
  obtain ⟨newer, stack, older, hstacks, hstack, hnewer⟩ := exists_first hstack
  obtain ⟨above, f, below, rfl, hcatches, habove⟩ := exists_first hstack
  refine ⟨⟨inner, act, callers, newer, older, above, f, below⟩, hacts, hstacks,
    hcatches, ?_⟩
  intro g hg hcatches
  simp only [passed, List.mem_append] at hg
  rcases hg with hg | hg | hg
  · obtain ⟨other, hother, hg⟩ := List.mem_flatMap.mp hg
    exact hinner other hother ⟨g, hg, hcatches⟩
  · obtain ⟨stack, hstack, hg⟩ := List.mem_flatten.mp hg
    exact hnewer stack hstack ⟨g, hg, hcatches⟩
  · exact habove g hg hcatches

/-- A run that goes on in the place of the frame, with these frames: the functions in front are
left, and what their parameters shadowed is put back, the innermost first. The unit of the frame
keeps its own bindings, since it is not left. -/
def resumed {σ : Type} (s : Stage) (m : Machine σ) (frames : List Frame) : Machine σ :=
  { m.withScope (m.scope.restoreAll (s.inner.flatMap Activation.saved)) with
    activations := { s.act with frames := frames ++ s.below, subroutines := s.older } :: s.callers
    pending := none }

/-- The run goes on with the handler of the try statement at `place`. The frame of the statement
stays under the handler, in the phase in which it takes no fault. -/
def handling {σ : Type} (s : Stage) (m : Machine σ) (place : StmtPath) : Machine σ :=
  s.resumed m [Frame.block (place.child .handler) 0, Frame.new (.tryCatch place .handler)]

end Stage

/-! ## The search

Each of the three loops of the search passes over what takes no fault, and stops at the first thing
that does. Nothing is assumed about the machine here but that the units in front are functions. -/

namespace Frame

theorem findHandler_append {above : List Frame} (h : ∀ f ∈ above, ¬ f.kind.Catches)
    (rest : List Frame) :
    findHandler (above ++ rest) = findHandler rest := by
  induction above with
  | nil => rfl
  | cons f above ih =>
    rw [List.forall_mem_cons] at h
    rw [List.cons_append, findHandler, handler?_eq_none h.1]
    exact ih h.2

theorem findHandler_eq_none {stack : List Frame} (h : ∀ f ∈ stack, ¬ f.kind.Catches) :
    findHandler stack = none := by
  have hskip := findHandler_append h []
  rwa [List.append_nil] at hskip

theorem findInStacks_append {newer : List (List Frame)}
    (h : ∀ f ∈ newer.flatten, ¬ f.kind.Catches) (rest : List (List Frame)) :
    findInStacks (newer ++ rest) = findInStacks rest := by
  induction newer with
  | nil => rfl
  | cons stack newer ih =>
    rw [List.flatten_cons, List.forall_mem_append] at h
    rw [List.cons_append, findInStacks, findHandler_eq_none h.1]
    exact ih h.2

theorem findInStacks_eq_none {piles : List (List Frame)}
    (h : ∀ f ∈ piles.flatten, ¬ f.kind.Catches) :
    findInStacks piles = none := by
  have hskip := findInStacks_append h []
  rwa [List.append_nil] at hskip

end Frame

namespace Machine

variable {σ : Type} {env : Setting σ} {m : Machine σ} {inner : List Activation}
  {act : Activation} {callers : List Activation} {failure : Failure} {s : Stage}

/-- Functions without a handler are left, one after the other. The scope changes on the way, so the
induction is for all scopes. -/
theorem findCaught_append (functions : AllFunctions inner)
    (h : ∀ f ∈ outward inner, ¬ f.kind.Catches) (scope : Scope) (rest : List Activation) :
    findCaught scope (inner ++ rest) =
      findCaught (scope.restoreAll (inner.flatMap Activation.saved)) rest := by
  induction inner generalizing scope with
  | nil => rfl
  | cons act inner ih =>
    -- the search leaves this function, and what its parameters shadowed is put back first
    obtain ⟨name, hunit⟩ := functions act List.mem_cons_self
    rw [outward, List.flatMap_cons, List.forall_mem_append] at h
    rw [List.cons_append, findCaught, Frame.findInStacks_eq_none h.1, hunit, List.flatMap_cons,
      Scope.restoreAll_append]
    exact ih (fun act hact => functions act (List.mem_cons_of_mem _ hact)) h.2 _

theorem Rooted.functions (h : Rooted (inner ++ act :: callers)) : AllFunctions inner := by
  induction inner with
  | nil => exact List.forall_mem_nil _
  | cons top inner ih =>
    have hrest : Rooted (inner ++ act :: callers) := Rooted.tail h (by simp)
    rw [List.cons_append] at h
    cases h' : inner ++ act :: callers with
    | nil => simp at h'
    | cons next rest =>
      rw [h'] at h
      cases h with
      | function unit => exact List.forall_mem_cons.mpr ⟨⟨_, unit⟩, ih hrest⟩

/-- What is found is the first frame that takes the fault, with what lies under it, and with the
scope that the functions in front leave behind. -/
theorem findCaught_innermost (h : s.Innermost m.activations) (rooted : Rooted m.activations) :
    ∃ handler, s.frame.handler? = some handler ∧ findCaught m.scope m.activations =
      .ok ⟨handler, { s.act with frames := s.below, subroutines := s.older }, s.callers,
        m.scope.restoreAll (s.inner.flatMap Activation.saved)⟩ := by
  obtain ⟨handler, hhandler⟩ := Frame.catches_iff.mp h.catches
  have hfirst := h.first
  rw [Stage.passed, List.forall_mem_append, List.forall_mem_append] at hfirst
  obtain ⟨hinner, hnewer, habove⟩ := hfirst
  rw [h.units] at rooted
  refine ⟨handler, hhandler, ?_⟩
  rw [h.units, findCaught_append rooted.functions hinner, findCaught, h.split,
    Frame.findInStacks_append hnewer, Frame.findInStacks, Frame.findHandler_append habove,
    Frame.findHandler, hhandler]

/-- If no frame takes the fault the search ends at the main program, with all functions left. Their
bindings are put back all the same, from the innermost on. -/
theorem findCaught_nothing (h : ∀ f ∈ outward (inner ++ [act]), ¬ f.kind.Catches)
    (rooted : Rooted (inner ++ [act])) (unit : act.unit = .main) (scope : Scope) :
    findCaught scope (inner ++ [act]) =
      .error (scope.restoreAll (inner.flatMap Activation.saved)) := by
  rw [outward, List.flatMap_append, List.forall_mem_append] at h
  obtain ⟨hinner, hmain⟩ := h
  rw [List.flatMap_singleton] at hmain
  rw [findCaught_append rooted.functions hinner, findCaught, Frame.findInStacks_eq_none hmain, unit]

/-! ## Machines with a fault

From the search to the micro-step. A machine of a run that has a fault pending has units, its main
program is the last of them, and its frames stand at the statements that they run. -/

/-- As long as there are units, the main program is the last of them; and no fault outlives them.
Both have to be shown together, because a fault in a machine without units would be unwound. -/
theorem Reachable.rooted (linked : env.program.Linked) (h : Reachable env m) :
    Rooted m.activations ∨ m.activations = [] ∧ m.pending = none := by
  induction h using Reachable.run_induction with
  | new => exact .inl (.main rfl)
  | @act m m' reached hact ih =>
    cases hact with
    | finish => exact ih
    | handled h =>
      rw [h.activations, h.pending]
      exact ih
    | tick =>
      have ticked := tick_ticked env m
      rcases ih with rooted | ⟨nothing, calm⟩
      · have arrives := ticked.arrives rooted
        have hdefect := tick_ne_defect linked reached.placed
        generalize m.tick env = r at arrives hdefect ⊢
        cases arrives with
        | astray => exact absurd rfl hdefect
        | running rooted' => exact .inl rooted'
        | record rooted' => exact .inl rooted'
        | last nothing calm => exact .inr ⟨nothing, calm⟩
        | done nothing calm => exact .inr ⟨nothing, calm⟩
        | failed nothing calm => exact .inr ⟨nothing, calm⟩
      · -- nothing is left to run, so all that a micro-step can do is to leave it so
        generalize m.tick env = r at ticked ⊢
        cases ticked with
        | astray => exact .inr ⟨nothing, calm⟩
        | cancelled => exact .inr ⟨rfl, rfl⟩
        | idle => exact .inr ⟨nothing, calm⟩
        | ended => exact .inr ⟨rfl, rfl⟩
        | unwind pending =>
          rw [calm] at pending
          cases pending
        | back going front | moved going same frames front | ran going front
        | stopped going front =>
          rw [nothing] at front
          cases front

/-- What becomes of a machine whose fault is taken by this frame. The handler of a try statement
sees the fault in its variable, unless that is a constant: then the fault is lost, and the one about
the constant takes its place. -/
inductive Resumes (env : Setting σ) (m : Machine σ) (failure : Failure) (s : Stage) :
    Machine σ → Prop where
  | retry {place : StmtPath} {attempt max : UInt32}
      (kind : s.frame.kind = .retry place .body attempt max)
      (left : attempt < max) :
      Resumes env m failure s (s.resumed m
        [Frame.block (place.child .body) 0, Frame.new (.retry place .body (attempt + 1) max)])
  | tryCatch {place : StmtPath} {body handler : Block} {line : Line}
      (kind : s.frame.kind = .tryCatch place .body)
      (stmt : env.program.stmt? s.act.unit place = some (.tryCatch body none handler line)) :
      Resumes env m failure s (s.handling m place)
  | bound {place : StmtPath} {name : String} {body handler : Block} {line : Line}
      (kind : s.frame.kind = .tryCatch place .body)
      (stmt : env.program.stmt? s.act.unit place = some (.tryCatch body (some name) handler line))
      (free : (s.handling m place).scope.isConst name = false) :
      Resumes env m failure s ((s.handling m place).withScope
        ((s.handling m place).scope.force name failure.fault.payload))
  | constant {place : StmtPath} {name : String} {body handler : Block} {line : Line}
      (kind : s.frame.kind = .tryCatch place .body)
      (stmt : env.program.stmt? s.act.unit place = some (.tryCatch body (some name) handler line))
      (frozen : (s.handling m place).scope.isConst name = true) :
      Resumes env m failure s
        { (s.handling m place).withScope
            ((s.handling m place).scope.noteFailure ⟨line, .assignToConstant name⟩) with
          pending := some ⟨line, .assignToConstant name⟩ }

/-- The frame of a try statement stands in a unit that has this statement. Without that the handler
would be looked up in vain. -/
theorem stmt_of_innermost (h : s.Innermost m.activations)
    (placed : AllPlaced env.program m.activations) {place : StmtPath}
    (kind : s.frame.kind = .tryCatch place .body) :
    ∃ body catchVar handler line,
      env.program.stmt? s.act.unit place = some (.tryCatch body catchVar handler line) := by
  rw [h.units] at placed
  obtain ⟨⟨root, hact⟩, -⟩ := AllPlaced.cons_iff.mp placed.suffix
  have hplaced := hact.of_stacks h.split
  obtain ⟨stmt, hstmt, runs⟩ := hplaced.runs hact.unit (by rw [kind]; rfl)
  rw [kind] at runs
  cases runs
  exact ⟨_, _, _, _, hstmt⟩

/-- The handler that was found starts in one of the ways of `Resumes`. The kind of the frame decides
which, and for a try statement its variable. -/
theorem handle_resumes (h : s.Innermost m.activations)
    (placed : AllPlaced env.program m.activations) {handler : Handler}
    (found : s.frame.handler? = some handler) :
    ∃ m', Resumes env m failure s m' ∧ m.handle env failure
      ⟨handler, { s.act with frames := s.below, subroutines := s.older }, s.callers,
        m.scope.restoreAll (s.inner.flatMap Activation.saved)⟩ = some m' := by
  have hcatches := h.catches
  unfold Frame.handler? at found
  cases hkind : s.frame.kind with
  | tryCatch place phase =>
    rw [hkind] at hcatches found
    cases hcatches
    cases found
    obtain ⟨body, catchVar, handler, line, hstmt⟩ := stmt_of_innermost h placed hkind
    simp only [handle, hstmt]
    cases catchVar with
    | none => exact ⟨_, .tryCatch hkind hstmt, rfl⟩
    | some name =>
      dsimp only
      -- the variable is looked up behind the restoring, in the scope that the handler will run in
      by_cases hconst : (s.handling m place).scope.isConst name = true
      · have hset : (s.handling m place).scope.set name failure.fault.payload =
            .error (.assignToConstant name) := if_pos hconst
        refine ⟨_, .constant hkind hstmt hconst, ?_⟩
        split
        · rename_i scope hok
          cases hset.symm.trans hok
        · rename_i fault herror
          cases hset.symm.trans herror
          rfl
      · have hset : (s.handling m place).scope.set name failure.fault.payload = .ok _ :=
          if_neg hconst
        refine ⟨_, .bound hkind hstmt (by simpa using hconst), ?_⟩
        split
        · rename_i scope hok
          cases hset.symm.trans hok
          rfl
        · rename_i fault herror
          cases hset.symm.trans herror
  | retry place phase attempt max =>
    rw [hkind] at hcatches found
    cases hcatches with
    | retry _ left =>
      simp only [if_pos left, Option.some.injEq] at found
      subst found
      exact ⟨_, .retry hkind left, rfl⟩
  | block | condition | cycle | doCycle =>
    rw [hkind] at hcatches
    cases hcatches

/-- Where a frame takes the fault, unwinding goes on there. The fault is not pending any more then,
but the handler may have raised one of its own. -/
theorem unwind_resumes (h : s.Innermost m.activations)
    (placed : AllPlaced env.program m.activations) (rooted : Rooted m.activations)
    (catchable : failure.fault.isTerminal = false) :
    ∃ m', Resumes env m failure s m' ∧ m.unwind env failure = (.running, m') := by
  obtain ⟨handler, hhandler, hfind⟩ := findCaught_innermost h rooted
  obtain ⟨m', hresumes, hhandle⟩ := handle_resumes h placed hhandler
  refine ⟨m', hresumes, ?_⟩
  simp [unwind, catchable, hfind, hhandle]

theorem unwind_nothing (h : ∀ f ∈ outward m.activations, ¬ f.kind.Catches)
    (rooted : Rooted m.activations) (catchable : failure.fault.isTerminal = false) :
    ∃ functions main, m.activations = functions ++ [main] ∧ main.unit = .main ∧
      m.unwind env failure = (.failed failure,
        { m.withScope (m.scope.restoreAll (functions.flatMap Activation.saved)) with
          activations := [], pending := none }) := by
  obtain ⟨functions, main, hacts, hmain, -⟩ := rooted.split
  refine ⟨functions, main, hacts, hmain, ?_⟩
  rw [hacts] at h rooted
  have hfind := findCaught_nothing h rooted hmain m.scope
  rw [← hacts] at hfind
  simp [unwind, catchable, hfind]

/-- **A fault goes to the innermost frame that takes it, and disturbs nothing under that.** The
frames are listed from the top of the unit in front outwards. If one of them takes the fault, the
next micro-step goes on in the place of the first such frame, with all that lies under it as it was,
and with the functions in front of its unit left. If none does, the run fails with that fault, and
all functions are left. -/
theorem innermost_handles {script : Block} (hprogram : env.program = Program.link script)
    (h : Reachable env m) (pending : m.pending = some failure)
    (catchable : failure.fault.isTerminal = false) :
    ((∃ f ∈ outward m.activations, f.kind.Catches) →
      ∃ s : Stage, s.Innermost m.activations) ∧
    (∀ s : Stage, s.Innermost m.activations →
      outward m.activations = s.passed ++ s.frame :: s.under ∧
      ∃ m', m.tick env = (.running, m') ∧ Resumes env m failure s m') ∧
    ((∀ f ∈ outward m.activations, ¬ f.kind.Catches) →
      ∃ functions main, m.activations = functions ++ [main] ∧ main.unit = .main ∧
        m.tick env = (.failed failure,
          { m.withScope (m.scope.restoreAll (functions.flatMap Activation.saved)) with
            activations := [], pending := none })) := by
  have linked : env.program.Linked := hprogram ▸ Program.linked_link script
  have rooted : Rooted m.activations := by
    obtain rooted | ⟨-, calm⟩ := h.rooted linked
    · exact rooted
    · rw [calm] at pending
      cases pending
  rw [tick_pending pending]
  refine ⟨Stage.exists_innermost, ?_, ?_⟩
  · intro s innermost
    obtain ⟨m', hresumes, hunwind⟩ := unwind_resumes innermost h.placed rooted catchable
    exact ⟨innermost.outward_eq, m', hunwind, hresumes⟩
  · intro hnothing
    exact unwind_nothing hnothing rooted catchable

/-- A subroutine that is called in a try statement calls a function, whose handler throws again. -/
def escaping : Block :=
  .mk
    [.function "f" ["p"]
      (.mk
        [.tryCatch (.mk [.throw (.bool true 3) 3] 2 4) none
          (.mk [.throw (.var "p" 5) 5] 4 6) 2]
        1 7)
      1,
      .tryCatch (.mk [.gosub "sub" 9] 8 10) (some "e") (.mk [.noop 11] 10 12) 8,
      .label "sub" 13,
      .call "f" [.bool false 14] 14]
    0 15

/-- The second throw passes the try statement that runs its handler, the function and the
subroutine. The frame that takes it is the sixth, in a stack put aside, and the parameter is gone
behind the micro-step. -/
theorem innermost_handles_escaping :
    let env : Setting Unit := ⟨Program.link escaping, .default, .null ""⟩
    let m := (Machine.new (.ofInputs []) ()).ticks env 8
    (outward m.activations).map (fun f => decide f.kind.Catches) =
      [false, false, false, false, false, true, false] ∧
    (m.scope.get? "p").isSome = true ∧ ((m.tick env).2.scope.get? "p").isSome = false ∧
    ∃ failure s m', m.pending = some failure ∧ failure.fault.isTerminal = false ∧
      s.Innermost m.activations ∧ outward m.activations = s.passed ++ s.frame :: s.under ∧
      m.tick env = (.running, m') ∧ Resumes env m failure s m' := by
  intro env m
  have htakes : (outward m.activations).map (fun f => decide f.kind.Catches) =
      [false, false, false, false, false, true, false] := by
    decide +kernel
  have hbefore : (m.scope.get? "p").isSome = true := by decide +kernel
  have hafter : ((m.tick env).2.scope.get? "p").isSome = false := by decide +kernel
  have hfault : m.pending.map (fun failure => failure.fault.isTerminal) = some false := by
    decide +kernel
  have hcatches : ∃ f ∈ outward m.activations, f.kind.Catches := by decide +kernel
  have hreach : Reachable env m := (Reachable.new (.ofInputs []) ()).ticks 8
  have hprogram : env.program = Program.link escaping := rfl
  clear_value m env
  obtain ⟨failure, hpending, hterminal⟩ := Option.map_eq_some_iff.mp hfault
  obtain ⟨hexists, hhandles, -⟩ := innermost_handles hprogram hreach hpending hterminal
  obtain ⟨s, hinnermost⟩ := hexists hcatches
  obtain ⟨hlist, m', htick, hresumes⟩ := hhandles s hinnermost
  exact ⟨htakes, hbefore, hafter, failure, s, m', hpending, hterminal, hinnermost, hlist,
    htick, hresumes⟩

end Machine

end Stepwise
