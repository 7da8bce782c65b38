import Stepwise.Proofs.Canonical
import Stepwise.Proofs.Linking

/-!
# A linked program has no defects

A machine keeps positions and looks them up at every micro-step, and `Tick.defect` is what it comes
to if there is nothing there, or not what there should be. **A machine of a linked program never
comes to that**, whatever its script, its host and its owner do: positions stay placed
(`Reachable.placed`), and the tables of a linked program lead to where they say.

The two halves come from different places. `Proofs/Placement` and `Proofs/Canonical` have that
frames follow the nesting of their unit, for any program. `Proofs/Linking` has that a unit holds no
comment and that a label table leads to labels. Here each reason for a defect that `Moves` lists is
refuted by one of them (`not_stray`), and the two functions by which an owner looks at a machine,
`nextLine?` and `ahead?`, are shown to give an answer.

The last section puts this together for commands. `advance_cases` is used far beyond this module: it
says once what an advance can do, and `Proofs/Driving`, `Proofs/Breakpoints` and
`Proofs/PausePoints` start from it.
-/

namespace Stepwise

/-! ## What a position stands for -/

theorem Frame.eq_of_handler?_tryCatch {f : Frame} {place : StmtPath}
    (h : f.handler? = some (.tryCatch place)) :
    ∃ replay, f = ⟨.tryCatch place .body, replay⟩ := by
  obtain ⟨kind, replay⟩ := f
  cases kind with
  | tryCatch place phase =>
    cases phase with
    | body => cases h; exact ⟨replay, rfl⟩
    | handler => cases h
  | retry place phase attempt max =>
    cases phase with
    | body =>
      simp only [handler?] at h
      split at h <;> cases h
    | enter => cases h
    | test => cases h
  | block => cases h
  | condition => cases h
  | cycle => cases h
  | doCycle => cases h

/-- What a frame stands for is there: a block without comments, or a statement of its kind. The
index in a block is not restricted, as a frame may point behind the end. -/
def Frame.Resolved (p : Program) (u : CodeUnit) (f : Frame) : Prop :=
  match f.kind with
  | .block path _ => ∃ b, p.block? u path = some b ∧ ∀ s ∈ b.body, s.isComment = false
  | kind =>
    ∃ place stmt, kind.place? = some place ∧ p.stmt? u place = some stmt ∧ kind.Runs stmt

/-- The unit is there, and what all frames of its stacks stand for. -/
def Activation.Resolved (p : Program) (act : Activation) : Prop :=
  (∃ root, p.unitRoot? act.unit = some root) ∧
    ∀ stack ∈ act.frames :: act.subroutines, ∀ f ∈ stack, f.Resolved p act.unit

/-! ## Positions -/

namespace Program.Linked

variable {p : Program} {u : CodeUnit} {root : Block}

theorem not_comment (linked : p.Linked) {path : BlockPath} {b : Block} {s : Stmt}
    (hblock : p.block? u path = some b) (hs : s ∈ b.body) : s.isComment = false := by
  obtain ⟨root, hroot, hb⟩ := Program.block?_eq_some.mp hblock
  obtain ⟨script, rfl⟩ := linked.unitRoot u root hroot
  obtain ⟨inner, rfl⟩ := Block.follow?_linked hb
  exact Block.not_comment_of_linked hs

theorem resume_of_label (linked : p.Linked) {label : String} {target : StmtPath}
    (hlabel : p.label? u label = some target) :
    ∃ root frames, p.unitRoot? u = some root ∧ Frame.resume root target = some frames := by
  obtain ⟨root, line, hroot, hstmt⟩ := linked.label u label target hlabel
  obtain ⟨b, hb, -⟩ := Block.stmtAt?_eq_some.mp hstmt
  obtain ⟨frames, hframes⟩ := Frame.descend_of_follow? hb [] (target.index + 1) []
  exact ⟨root, frames, hroot, hframes⟩

theorem resolved (linked : p.Linked) (hroot : p.unitRoot? u = some root) {f : Frame}
    {below : List Frame} (h : Frame.Placed root (f :: below)) : f.Resolved p u := by
  cases h with
  | block inside next replay =>
    have hblock := inside.block? hroot
    exact ⟨_, hblock, fun s hs => linked.not_comment hblock hs⟩
  | @statement path b below index stmt kind inside hstmt runs hplace replay replay' =>
    have hstmt' := (inside.stmt? hroot index).trans hstmt
    cases kind with
    | block => cases hplace
    | _ => exact ⟨_, stmt, hplace, hstmt', runs⟩

theorem resolved_of_mem (linked : p.Linked) (hroot : p.unitRoot? u = some root) {stack : List Frame}
    (h : Frame.Placed root stack) : ∀ f ∈ stack, f.Resolved p u := by
  intro f hmem
  obtain ⟨above, below, rfl⟩ := List.append_of_mem hmem
  exact linked.resolved hroot h.suffix

theorem activation_resolved (linked : p.Linked) {act : Activation} (h : act.Placed p) :
    act.Resolved p := by
  obtain ⟨root, hact⟩ := h
  refine ⟨⟨root, hact.unit⟩, fun stack hstack => linked.resolved_of_mem hact.unit ?_⟩
  obtain rfl | hstack := List.mem_cons.mp hstack
  · exact hact.frames
  · exact (hact.subroutines stack hstack).1

end Program.Linked

namespace Machine

variable {σ : Type} {env : Setting σ} {m : Machine σ}

open Activation

/-! ## Nothing is astray -/

/-- Every reason for a defect is refuted, by what the frame in front stands for or by where the
label leads. -/
theorem not_stray (linked : env.program.Linked) {acts : List Activation}
    (placed : AllPlaced env.program acts) : ¬ Stray env acts := by
  intro stray
  cases stray with
  | block missing next replay below subroutines saved callers =>
    obtain ⟨⟨root, hact⟩, -⟩ := AllPlaced.cons_iff.mp placed
    obtain ⟨b, hblock, -⟩ := linked.resolved hact.unit hact.frames
    rw [hblock] at missing
    cases missing
  | @comment u path next stmt hstmt comment replay below subroutines saved callers =>
    obtain ⟨⟨root, hact⟩, -⟩ := AllPlaced.cons_iff.mp placed
    obtain ⟨b, hblock, hbody⟩ := linked.resolved hact.unit hact.frames
    have hmem : stmt ∈ b.body := by
      rw [Program.stmt?_of_block? hblock] at hstmt
      exact List.mem_of_getElem? hstmt
    rw [hbody stmt hmem] at comment
    cases comment
  | statement hplace other replay below subroutines saved callers =>
    obtain ⟨⟨root, hact⟩, -⟩ := AllPlaced.cons_iff.mp placed
    obtain ⟨b, stmt, under, replay', inside, hstmt, runs, -⟩ := hact.frames.at_place hplace
    refine other stmt ?_ runs
    rw [inside.stmt? hact.unit, hstmt]
  | label hlabel missing frames subroutines saved callers =>
    obtain ⟨root, frames, hroot, hframes⟩ := linked.resume_of_label hlabel
    rw [missing root hroot] at hframes
    cases hframes
  -- the handler that is found is that of a placed frame, so its statement is a try
  | @handler _ _ c place found hhandler other =>
    obtain ⟨root, f, hroot, hf, hplaced, -, -⟩ := caught_frame found placed
    obtain ⟨replay, rfl⟩ : ∃ replay, f = ⟨.tryCatch place .body, replay⟩ := by
      rw [hhandler] at hf
      exact Frame.eq_of_handler?_tryCatch hf
    obtain ⟨b, stmt, under, replay', inside, hstmt, runs, -⟩ := hplaced.at_place rfl
    refine other stmt ?_ runs
    rw [inside.stmt? hroot, hstmt]

/-! ## Looking ahead -/

theorem resolved_top (linked : env.program.Linked) (placed : AllPlaced env.program m.activations)
    {u : CodeUnit} {f : Frame} {below : List Frame} {subroutines : List (List Frame)}
    {saved : List (String × Option Value)} {callers : List Activation}
    (hm : m.activations = ⟨u, f :: below, subroutines, saved⟩ :: callers) :
    f.Resolved env.program u := by
  rw [hm] at placed
  obtain ⟨⟨root, hact⟩, -⟩ := AllPlaced.cons_iff.mp placed
  exact linked.resolved hact.unit hact.frames

/-- There is always a line to go on at: that of the statement in front, or the closing line of a
block or a unit. -/
theorem nextLine?_of_placed (linked : env.program.Linked)
    (placed : AllPlaced env.program m.activations) : ∃ line, m.nextLine? env = some line := by
  unfold nextLine?
  cases hm : m.activations with
  | nil => exact ⟨_, rfl⟩
  | cons act callers =>
    obtain ⟨u, frames, subroutines, saved⟩ := act
    cases frames with
    | nil =>
      rw [hm] at placed
      obtain ⟨⟨root, hact⟩, -⟩ := AllPlaced.cons_iff.mp placed
      exact ⟨root.endLine, Option.map_eq_some_iff.mpr ⟨root, hact.unit, rfl⟩⟩
    | cons f below =>
      have hf := resolved_top linked placed hm
      obtain ⟨kind, replay⟩ := f
      cases kind with
      | block path next =>
        obtain ⟨b, hblock, -⟩ := hf
        exact ⟨_, Option.map_eq_some_iff.mpr ⟨b, hblock, rfl⟩⟩
      | _ =>
        obtain ⟨place, stmt, hplace, hstmt, -⟩ := hf
        cases hplace
        exact ⟨_, Option.map_eq_some_iff.mpr ⟨stmt, hstmt, rfl⟩⟩

/-- What is ahead is known as well. Only frames at a header look their statement up for this. -/
theorem ahead?_of_placed (linked : env.program.Linked)
    (placed : AllPlaced env.program m.activations) : ∃ ahead, m.ahead? env = some ahead := by
  unfold ahead?
  cases hm : m.activations with
  | nil => exact ⟨_, rfl⟩
  | cons act callers =>
    obtain ⟨u, frames, subroutines, saved⟩ := act
    cases frames with
    | nil => exact ⟨_, rfl⟩
    | cons f below =>
      have hf := resolved_top linked placed hm
      obtain ⟨kind, replay⟩ := f
      cases kind with
      | block path next =>
        obtain ⟨b, hblock, -⟩ := hf
        exact ⟨_, Option.map_eq_some_iff.mpr ⟨b, hblock, rfl⟩⟩
      -- only frames are moved here, whatever the statement
      | tryCatch place phase => exact ⟨_, rfl⟩
      | condition place phase =>
        obtain ⟨_, stmt, ⟨⟩, hstmt, -⟩ := hf
        cases phase with
        | branch => exact ⟨_, rfl⟩
        | test => exact ⟨_, Option.map_eq_some_iff.mpr ⟨stmt, hstmt, rfl⟩⟩
      | cycle place phase =>
        obtain ⟨_, stmt, ⟨⟩, hstmt, -⟩ := hf
        cases phase with
        | body => exact ⟨_, rfl⟩
        | test => exact ⟨_, Option.map_eq_some_iff.mpr ⟨stmt, hstmt, rfl⟩⟩
      | doCycle place phase =>
        obtain ⟨_, stmt, ⟨⟩, hstmt, -⟩ := hf
        cases phase with
        | body => exact ⟨_, rfl⟩
        | test => exact ⟨_, Option.map_eq_some_iff.mpr ⟨stmt, hstmt, rfl⟩⟩
      | retry place phase attempt max =>
        obtain ⟨_, stmt, ⟨⟩, hstmt, -⟩ := hf
        cases phase with
        | body => exact ⟨_, rfl⟩
        | enter => exact ⟨_, Option.map_eq_some_iff.mpr ⟨stmt, hstmt, rfl⟩⟩
        | test => exact ⟨_, Option.map_eq_some_iff.mpr ⟨stmt, hstmt, rfl⟩⟩

/-- **No micro-step of a linked program is a defect.** A record shows the next line, so the machine
looks up its position also after it has moved, which is the first of the two reasons. -/
theorem tick_ne_defect (linked : env.program.Linked)
    (placed : AllPlaced env.program m.activations) :
    (m.tick env).1 ≠ .defect := by
  intro hdefect
  have moved := tick_moved env m
  obtain hnext | stray := moved.stray hdefect
  · obtain ⟨line, hline⟩ := nextLine?_of_placed linked (moved.moves.placed placed)
    rw [hline] at hnext
    cases hnext
  · exact not_stray linked placed stray

/-! ## Commands -/

/-- What the owner of a machine can ask of it. What an owner may do to the scope is left out, as it
touches no position. -/
inductive Command where
  | step (fuel : Nat)
  | advance (stop : Line → Bool) (fuel : Nat)
  | nextLine
  | takeDelay
  | resume
  | cancel

/-- The machine behind a command; none if it came upon a defect. -/
def obey (env : Setting σ) (m : Machine σ) : Command → Option (Machine σ)
  | .step fuel =>
    match m.step env fuel with
    | (.defect, _) => none
    | (_, m) => some m
  | .advance stop fuel =>
    match m.advance env stop fuel with
    | (.defect, _) => none
    | (_, m) => some m
  | .nextLine => (m.nextLine? env).map fun _ => m
  | .takeDelay => some m.takeDelay.2
  | .resume => some m.resume
  | .cancel => some m.cancel

/-- A step is no defect, and leaves a machine that is reached. The induction is on the fuel. -/
theorem Reachable.step (linked : env.program.Linked) (h : Reachable env m) (fuel : Nat) :
    (m.step env fuel).1 ≠ .defect ∧ Reachable env (m.step env fuel).2 := by
  induction fuel generalizing m with
  | zero =>
    unfold Machine.step
    split
    · exact ⟨nofun, h⟩
    · exact ⟨nofun, h⟩
  | succ fuel ih =>
    unfold Machine.step
    split
    · exact ⟨nofun, h⟩
    have hdefect := tick_ne_defect linked h.placed
    have hnext := h.tick
    cases htick : m.tick env with
    | mk tick m' =>
      rw [htick] at hdefect hnext
      cases tick with
      | running => exact ih hnext
      | record r => exact ⟨nofun, hnext.finish _⟩
      | done => exact ⟨nofun, hnext.finish _⟩
      | failed f => exact ⟨nofun, hnext.finish _⟩
      | defect => exact absurd rfl hdefect

/-- How an advance goes on behind a micro-step. -/
def advanceBehind (env : Setting σ) (stop : Line → Bool) (fuel : Nat) :
    Tick × Machine σ → Advance × Machine σ
  | (.running, m) => m.advance env stop fuel
  | (.done, m) => (.stopped, { m with finished := true })
  | (.record _, m) => (.stopped, m)
  | (.failed _, m) => (.stopped, m)
  | (.defect, m) => (.defect, m)

/-- Why an advance goes no further from here. The reasons are tested in this order, but an advance
that stays has only one of them in hand. -/
inductive Stays (env : Setting σ) (stop : Line → Bool) (m : Machine σ) : Prop where
  | finished (h : m.finished = true)
  | fault (h : m.pending.isSome = true)
  | cancelled (h : m.cancelled = true)
  | statement (h : m.ahead? env = some .statement)
  | header {line : Line} (h : m.ahead? env = some (.header line)) (named : stop line = true)

/-- What an advance knows of a machine before it makes a micro-step: it goes on, no fault is
pending, nobody has cancelled, and frames are to be moved or a header is to be evaluated. -/
structure Goes (env : Setting σ) (m : Machine σ) : Prop where
  going : m.finished = false
  calm : m.pending = none
  heeded : m.cancelled = false
  ahead : m.ahead? env = some .frames ∨ ∃ line, m.ahead? env = some (.header line)

/-- An advance stops, or looks at nothing, or makes a micro-step. With this nobody has to open
`advance` again. -/
theorem advance_cases (env : Setting σ) (stop : Line → Bool) (fuel : Nat) (m : Machine σ) :
    (m.advance env stop (fuel + 1) = (.stopped, m) ∧ Stays env stop m) ∨
    (m.advance env stop (fuel + 1) = (.defect, m) ∧ m.ahead? env = none) ∨
    (m.advance env stop (fuel + 1) = advanceBehind env stop fuel (m.tick env) ∧ Goes env m) := by
  unfold advance
  split
  · rename_i h
    simp only [Bool.or_eq_true] at h
    rcases h with (hfinished | hpending) | hcancelled
    · exact .inl ⟨rfl, .finished hfinished⟩
    · exact .inl ⟨rfl, .fault hpending⟩
    · exact .inl ⟨rfl, .cancelled hcancelled⟩
  rename_i h
  simp only [Bool.or_eq_true, not_or, Bool.not_eq_true, Option.isSome_eq_false_iff,
    Option.isNone_iff_eq_none] at h
  obtain ⟨⟨hgoing, hcalm⟩, hheeded⟩ := h
  cases hahead : m.ahead? env with
  | none => exact .inr (.inl ⟨rfl, rfl⟩)
  | some ahead =>
    obtain ⟨tick, m'⟩ := m.tick env
    cases ahead with
    | statement => exact .inl ⟨rfl, .statement hahead⟩
    | frames => cases tick <;> exact .inr (.inr ⟨rfl, hgoing, hcalm, hheeded, .inl hahead⟩)
    -- a header may be where the caller wants to stop
    | header line =>
      dsimp only
      split
      · exact .inl ⟨rfl, .header hahead ‹_›⟩
      · cases tick <;> exact .inr (.inr ⟨rfl, hgoing, hcalm, hheeded, .inr ⟨line, hahead⟩⟩)

theorem Reachable.advance (linked : env.program.Linked) (h : Reachable env m) (stop : Line → Bool)
    (fuel : Nat) :
    (m.advance env stop fuel).1 ≠ .defect ∧ Reachable env (m.advance env stop fuel).2 := by
  induction fuel generalizing m with
  | zero =>
    unfold Machine.advance
    split
    · exact ⟨nofun, h⟩
    · exact ⟨nofun, h⟩
  | succ fuel ih =>
    obtain ⟨hstopped, -⟩ | ⟨-, hahead⟩ | ⟨hbehind, -⟩ := advance_cases env stop fuel m
    · rw [hstopped]
      exact ⟨nofun, h⟩
    -- the frame in front stands at something, so this does not happen
    · obtain ⟨ahead, hsome⟩ := ahead?_of_placed linked h.placed
      rw [hsome] at hahead
      cases hahead
    · rw [hbehind]
      have hdefect := tick_ne_defect linked h.placed
      have hnext := h.tick
      cases htick : m.tick env with
      | mk tick m' =>
        rw [htick] at hdefect hnext
        cases tick with
        | running => exact ih hnext
        | record r => exact ⟨nofun, hnext⟩
        | done => exact ⟨nofun, hnext.finish _⟩
        | failed f => exact ⟨nofun, hnext⟩
        | defect => exact absurd rfl hdefect

theorem Reachable.obey (linked : env.program.Linked) (h : Reachable env m) (command : Command) :
    ∃ m', m.obey env command = some m' ∧ Reachable env m' := by
  cases command with
  | takeDelay => exact ⟨_, rfl, h.handled .takeDelay⟩
  | resume => exact ⟨_, rfl, h.handled .resume⟩
  | cancel => exact ⟨_, rfl, h.handled .cancel⟩
  | nextLine =>
    obtain ⟨line, hline⟩ := nextLine?_of_placed linked h.placed
    exact ⟨m, by rw [Machine.obey, hline, Option.map_some], h⟩
  | step fuel =>
    obtain ⟨hdefect, hreach⟩ := h.step linked fuel
    simp only [Machine.obey]
    exact ⟨_, rfl, hreach⟩
  | advance stop fuel =>
    obtain ⟨hdefect, hreach⟩ := h.advance linked stop fuel
    simp only [Machine.obey]
    exact ⟨_, rfl, hreach⟩

theorem Reachable.obey_all (linked : env.program.Linked) (h : Reachable env m)
    (commands : List Command) :
    ∃ m', commands.foldlM (Machine.obey env) m = some m' ∧ Reachable env m' := by
  induction commands generalizing m with
  | nil => exact ⟨m, rfl, h⟩
  | cons command rest ih =>
    obtain ⟨m₁, hm₁, h₁⟩ := h.obey linked command
    obtain ⟨m₂, hm₂, h₂⟩ := ih h₁
    refine ⟨m₂, ?_, h₂⟩
    rw [List.foldlM_cons, hm₁]
    exact hm₂

/-- **A machine of a linked program obeys every command**, for every script, and in every state all
its positions are resolved. -/
theorem linked_obeys (script : Block) (options : Options) (host : Host σ) (scope : Scope)
    (world : σ) (commands : List Command) :
    let env : Setting σ := ⟨Program.link script, options, host⟩
    ∃ m, commands.foldlM (obey env) (Machine.new scope world) = some m ∧
      (∀ act ∈ m.activations, act.Resolved env.program) ∧
      (m.tick env).1 ≠ .defect ∧ (∃ line, m.nextLine? env = some line) ∧
      ∃ ahead, m.ahead? env = some ahead := by
  intro env
  have linked : env.program.Linked := Program.linked_link script
  obtain ⟨m, hm, h⟩ := (Reachable.new scope world).obey_all linked commands
  have placed := h.placed
  refine ⟨m, hm, fun act hmem => linked.activation_resolved (placed.placed act hmem), ?_⟩
  exact ⟨tick_ne_defect linked placed, nextLine?_of_placed linked placed,
    ahead?_of_placed linked placed⟩

end Machine

end Stepwise
