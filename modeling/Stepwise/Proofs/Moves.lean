import Stepwise.Machine.Run
import Stepwise.Proofs.Execute
import Stepwise.Proofs.Path

/-!
# What a micro-step does to the stacks

`Moves` lists what a micro-step can do to the activations of a machine, and under which conditions.
The operations that a micro-step ends with are gone through here, one by one; that there is nothing
else is `tick_moved` in `Proofs/Ticked`, which has the cases of a micro-step itself. What is to be
known of all positions of a run is proved rule by rule from this list, and without opening `tick`
again.

The list is about every program, also one whose tables lead nowhere. Then a micro-step can be a
defect, and `Stray` lists the reasons for that.

## What a rule says

A rule has the stacks before and after, with the parts that stay written as variables, and as
premises the tests that the machine has made: that the table has the label, that the statement is a
simple one, that an attempt is left. Invariants need these premises, so a rule keeps each of them.
What an invariant about positions does not need is left out, and that is all that depends on values:
which branch a condition takes, how many results are on a replay list, what is in the scope. So one
rule covers a test that holds and one that does not, as long as the stacks go the same way.

`Proofs/Placement` shows from the list that positions stay right, and `Proofs/Reachable` turns what
every rule keeps into what holds along a run. Adding a kind of frame means a constructor for
`Starts` or `Turns`, one lemma `run…_ticked`, and a case in each of the invariants.
-/

namespace Stepwise

/-! ## The list -/

namespace FrameKind

/-- The statement that a frame belongs to, if it is not that of a block. -/
def place? : FrameKind → Option StmtPath
  | .block _ _ => none
  | .condition place _ => some place
  | .cycle place _ => some place
  | .doCycle place _ => some place
  | .retry place _ _ _ => some place
  | .tryCatch place _ => some place

/-- A frame of the kind that this statement has, whatever its phase. The machine looks a frame's
statement up at every micro-step, and goes astray if it finds one of another kind. -/
inductive Runs : FrameKind → Stmt → Prop where
  | condition (place phase branches otherwise line) :
      Runs (.condition place phase) (.condition branches otherwise line)
  | cycle (place phase test body line) : Runs (.cycle place phase) (.cycle test body line)
  | doCycle (place phase body test line) : Runs (.doCycle place phase) (.doCycle body test line)
  | retry (place phase attempt max attempts body test line) :
      Runs (.retry place phase attempt max) (.retry attempts body test line)
  | tryCatch (place phase body catchVar handler line) :
      Runs (.tryCatch place phase) (.tryCatch body catchVar handler line)

/-- A header is done, and a block of its statement starts. Only for a retry does it matter which
header it was: the first attempt gets its number from the header, a further one is counted and has
to be left. -/
inductive Starts (place : StmtPath) : FrameKind → BlockSel → FrameKind → Prop where
  | condition (sel : BlockSel) :
      Starts place (.condition place .test) sel (.condition place .branch)
  | cycle : Starts place (.cycle place .test) .body (.cycle place .body)
  | doCycle : Starts place (.doCycle place .test) .body (.doCycle place .body)
  | first (attempt max n : UInt32) :
      Starts place (.retry place .enter attempt max) .body (.retry place .body 1 n)
  | again {attempt max : UInt32} (left : attempt < max) :
      Starts place (.retry place .test attempt max) .body (.retry place .body (attempt + 1) max)

/-- A body is done, and the test behind it comes next. -/
inductive Turns : FrameKind → FrameKind → Prop where
  | cycle (place : StmtPath) : Turns (.cycle place .body) (.cycle place .test)
  | doCycle (place : StmtPath) : Turns (.doCycle place .body) (.doCycle place .test)
  | retry (place : StmtPath) (attempt max : UInt32) :
      Turns (.retry place .body attempt max) (.retry place .test attempt max)

end FrameKind

namespace Frame

/-- What running the statements of a unit does to its stack, jumps aside. All of it happens in
front; the frames below are the same before and after. -/
inductive Shift (p : Program) (u : CodeUnit) : List Frame → List Frame → Prop where
  /-- A statement or header stopped for a call, or failed. -/
  | hold (kind : FrameKind) (replay replay' : List Value) (below : List Frame) :
      Shift p u (⟨kind, replay⟩ :: below) (⟨kind, replay'⟩ :: below)
  /-- A simple statement is done. -/
  | pass {path : BlockPath} {next : Nat} {stmt : Stmt}
      (hstmt : p.stmt? u ⟨path, next⟩ = some stmt)
      (simple : stmt.isStructured = false) (replay replay' : List Value) (below : List Frame) :
      Shift p u (⟨.block path next, replay⟩ :: below)
        (⟨.block path (next + 1), replay'⟩ :: below)
  | enter {path : BlockPath} {next : Nat} {stmt : Stmt}
      (hstmt : p.stmt? u ⟨path, next⟩ = some stmt)
      (structured : stmt.isStructured = true) (replay : List Value) (below : List Frame) :
      Shift p u (⟨.block path next, replay⟩ :: below)
        (Frame.enter stmt ⟨path, next⟩ ++ ⟨.block path (next + 1), replay⟩ :: below)
  | start {place : StmtPath} {stmt : Stmt} {sel : BlockSel} {b : Block} {kind kind' : FrameKind}
      (hstmt : p.stmt? u place = some stmt) (hb : stmt.block? sel = some b)
      (starts : kind.Starts place sel kind') (replay : List Value) (below : List Frame) :
      Shift p u (⟨kind, replay⟩ :: below)
        (Frame.block (place.child sel) 0 :: Frame.new kind' :: below)
  | turn {kind kind' : FrameKind} (turns : kind.Turns kind') (replay : List Value)
      (below : List Frame) : Shift p u (⟨kind, replay⟩ :: below) (⟨kind', replay⟩ :: below)
  /-- A block or a structured statement is done. -/
  | leave (f : Frame) (below : List Frame) : Shift p u (f :: below) below

end Frame

/-- The frames that a handler starts with. -/
def Handler.frames : Handler → List Frame
  | .tryCatch place =>
    [Frame.block (place.child .handler) 0, Frame.new (.tryCatch place .handler)]
  | .retry place attempt max =>
    [Frame.block (place.child .body) 0, Frame.new (.retry place .body (attempt + 1) max)]

namespace Activation

/-- Change the innermost frame of the innermost activation. -/
def mapFrame (f : Frame → Frame) : List Activation → List Activation
  | ⟨u, frame :: below, subroutines, saved⟩ :: callers =>
    ⟨u, f frame :: below, subroutines, saved⟩ :: callers
  | acts => acts

end Activation

namespace Machine

variable {σ : Type} {env : Setting σ}

/-- What a micro-step does to the activations. A shift works inside the unit in front, and the other
rules change units: they call, return, jump or look for a handler. -/
inductive Moves (env : Setting σ) : List Activation → List Activation → Prop where
  | stay (acts : List Activation) : Moves env acts acts
  /-- The run is over. -/
  | clear (acts : List Activation) : Moves env acts []
  | shift {u : CodeUnit} {frames frames' : List Frame}
      (shifts : Frame.Shift env.program u frames frames') (subroutines : List (List Frame))
      (saved : List (String × Option Value)) (callers : List Activation) :
      Moves env (⟨u, frames, subroutines, saved⟩ :: callers)
        (⟨u, frames', subroutines, saved⟩ :: callers)
  | call {name : String} {d : FunctionDef} {callers : List Activation}
      (known : env.program.function? name = some d)
      (shallow : callers.length < env.options.maxCallDepth) (u : CodeUnit) (kind : FrameKind)
      (replay replay' : List Value) (below : List Frame) (subroutines : List (List Frame))
      (saved shadowed : List (String × Option Value)) :
      Moves env (⟨u, ⟨kind, replay⟩ :: below, subroutines, saved⟩ :: callers)
        (Activation.new (.function name) shadowed ::
          ⟨u, ⟨kind, replay'⟩ :: below, subroutines, saved⟩ :: callers)
  /-- A function is left, and its value goes to the caller. -/
  | back {name : String} {frames : List Frame} {subroutines : List (List Frame)}
      (last : frames = [] ∨ subroutines = []) (saved : List (String × Option Value))
      (callers : List Activation) (value : Value) :
      Moves env (⟨.function name, frames, subroutines, saved⟩ :: callers)
        (Activation.mapFrame (fun f => { f with replay := f.replay ++ [value] }) callers)
  | jump {u : CodeUnit} {label : String} {target : StmtPath} {root : Block} {frames : List Frame}
      (hlabel : env.program.label? u label = some target)
      (hroot : env.program.unitRoot? u = some root)
      (resumes : Frame.resume root target = some frames) (before : List Frame)
      (subroutines : List (List Frame)) (saved : List (String × Option Value))
      (callers : List Activation) :
      Moves env (⟨u, before, subroutines, saved⟩ :: callers)
        (⟨u, frames, subroutines, saved⟩ :: callers)
  | gosub {u : CodeUnit} {label : String} {target : StmtPath} {root : Block} {frames : List Frame}
      {subroutines : List (List Frame)} (shallow : subroutines.length < env.options.maxCallDepth)
      (hlabel : env.program.label? u label = some target)
      (hroot : env.program.unitRoot? u = some root)
      (resumes : Frame.resume root target = some frames) (path : BlockPath) (next : Nat)
      (replay replay' : List Value) (below : List Frame) (saved : List (String × Option Value))
      (callers : List Activation) :
      Moves env (⟨u, ⟨.block path next, replay⟩ :: below, subroutines, saved⟩ :: callers)
        (⟨u, frames, (⟨.block path (next + 1), replay'⟩ :: below) :: subroutines,
          saved⟩ :: callers)
  /-- A subroutine is left. -/
  | ret (u : CodeUnit) (frames caller : List Frame) (subroutines : List (List Frame))
      (saved : List (String × Option Value)) (callers : List Activation) :
      Moves env (⟨u, frames, caller :: subroutines, saved⟩ :: callers)
        (⟨u, caller, subroutines, saved⟩ :: callers)
  | caught {acts : List Activation} {scope : Scope} {c : Caught}
      (found : findCaught scope acts = .ok c) :
      Moves env acts
        ({ c.activation with frames := c.handler.frames ++ c.activation.frames } :: c.callers)

/-- Why a micro-step is a defect: something is not where a position or a table says it is. None of
it can happen in a linked program, which is the subject of `Proofs/Safety`. -/
inductive Stray (env : Setting σ) : List Activation → Prop where
  | block {u : CodeUnit} {path : BlockPath} (missing : env.program.block? u path = none)
      (next : Nat)
      (replay : List Value) (below : List Frame) (subroutines : List (List Frame))
      (saved : List (String × Option Value)) (callers : List Activation) :
      Stray env (⟨u, ⟨.block path next, replay⟩ :: below, subroutines, saved⟩ :: callers)
  | comment {u : CodeUnit} {path : BlockPath} {next : Nat} {stmt : Stmt}
      (hstmt : env.program.stmt? u ⟨path, next⟩ = some stmt) (comment : stmt.isComment = true)
      (replay : List Value) (below : List Frame) (subroutines : List (List Frame))
      (saved : List (String × Option Value)) (callers : List Activation) :
      Stray env (⟨u, ⟨.block path next, replay⟩ :: below, subroutines, saved⟩ :: callers)
  /-- A frame that is not of the kind of its statement. -/
  | statement {u : CodeUnit} {kind : FrameKind} {place : StmtPath}
      (hplace : kind.place? = some place)
      (other : ∀ stmt, env.program.stmt? u place = some stmt → ¬ kind.Runs stmt)
      (replay : List Value) (below : List Frame) (subroutines : List (List Frame))
      (saved : List (String × Option Value)) (callers : List Activation) :
      Stray env (⟨u, ⟨kind, replay⟩ :: below, subroutines, saved⟩ :: callers)
  | label {u : CodeUnit} {label : String} {target : StmtPath}
      (hlabel : env.program.label? u label = some target)
      (missing : ∀ root, env.program.unitRoot? u = some root → Frame.resume root target = none)
      (frames : List Frame) (subroutines : List (List Frame))
      (saved : List (String × Option Value)) (callers : List Activation) :
      Stray env (⟨u, frames, subroutines, saved⟩ :: callers)
  | handler {acts : List Activation} {scope : Scope} {c : Caught} {place : StmtPath}
      (found : findCaught scope acts = .ok c) (hhandler : c.handler = .tryCatch place)
      (other : ∀ stmt, env.program.stmt? c.activation.unit place = some stmt →
        ¬ (FrameKind.tryCatch place .body).Runs stmt) : Stray env acts

/-- All there is to say about a micro-step from these activations: it moves them by a rule, and it
is a defect only for a reason. -/
structure Moved (env : Setting σ) (acts : List Activation) (r : Tick × Machine σ) : Prop where
  moves : Moves env acts r.2.activations
  /-- A defect has a reason: nothing is where the machine went, or where it was. -/
  stray : r.1 = .defect → r.2.nextLine? env = none ∨ Stray env acts

/-! ## What the operations do to the activations

The machine changes its stacks through a few operations. Each has an equation here, so that what
follows compares lists of activations and opens no operation twice. -/

variable {m : Machine σ} {u : CodeUnit} {subroutines : List (List Frame)}
  {saved : List (String × Option Value)} {callers : List Activation}

theorem withFrames_activations {before : List Frame}
    (h : m.activations = ⟨u, before, subroutines, saved⟩ :: callers) (frames : List Frame) :
    (m.withFrames frames).activations = ⟨u, frames, subroutines, saved⟩ :: callers := by
  simp only [withFrames, mapTop, h]

theorem mapFrame_activations (m : Machine σ) (f : Frame → Frame) :
    (m.mapFrame f).activations = Activation.mapFrame f m.activations := by
  unfold mapFrame mapTop
  cases h : m.activations with
  | nil => simp only [h, Activation.mapFrame]
  | cons act rest =>
    obtain ⟨u, frames, subroutines, saved⟩ := act
    cases frames <;> rfl

/-- A fault empties the replay list of the frame in front, as its evaluation is not taken up
again. -/
theorem raise_activations (m : Machine σ) (line : Line) (fault : Fault) :
    (m.raise line fault).activations =
      Activation.mapFrame (fun f => { f with replay := [] }) m.activations :=
  mapFrame_activations m _

/-- The value of a function goes to the end of the replay list of the frame that waits for it. All
else about the callers stays as it was. -/
theorem returnFromFunction_activations {act : Activation} (h : m.activations = act :: callers)
    (value : Value) :
    (m.returnFromFunction value).activations =
      Activation.mapFrame (fun f => { f with replay := f.replay ++ [value] }) callers := by
  simp only [returnFromFunction, h, mapFrame_activations]

/-! ## Evaluations that stop -/

theorem Moved.running {acts : List Activation} (h : Moves env acts m.activations) :
    Moved env acts (.running, m) :=
  ⟨h, nofun⟩

/-- An evaluation that stopped for a function either has it in front afterwards or has failed. The
bound on the depth is the premise of the rule for calls. -/
theorem callFunction_moves {kind : FrameKind} {replay' : List Value} {below : List Frame}
    (hm : m.activations = ⟨u, ⟨kind, replay'⟩ :: below, subroutines, saved⟩ :: callers)
    (line : Line) (name : String) (args : List Value) (replay : List Value) :
    Moves env (⟨u, ⟨kind, replay⟩ :: below, subroutines, saved⟩ :: callers)
      (m.callFunction env line name args).activations := by
  -- a refused call is a fault of the statement that asked for it
  have refused : ∀ (m' : Machine σ) (fault : Fault), m'.activations = m.activations →
      Moves env (⟨u, ⟨kind, replay⟩ :: below, subroutines, saved⟩ :: callers)
        (m'.raise line fault).activations := by
    intro m' fault h
    rw [raise_activations, h, hm]
    exact .shift (.hold kind replay [] below) _ _ _
  unfold callFunction
  cases hd : env.program.function? name with
  | none => exact refused m _ rfl
  | some d =>
    dsimp only
    split
    · exact refused m _ rfl
    split
    · exact refused m _ rfl
    rename_i hdepth _
    cases bindParams m.scope [] (d.params.zip args) with
    | mk result scope =>
      cases result with
      | error f => exact refused (m.withScope scope) f rfl
      | ok shadowed =>
        have shallow : callers.length < env.options.maxCallDepth := by
          rw [hm, List.length_cons] at hdepth
          omega
        show Moves env _ (Activation.new (.function name) shadowed :: m.activations)
        rw [hm]
        exact .call hd shallow u kind replay replay' below subroutines saved shadowed

theorem interrupt_moves {kind : FrameKind} {replay' : List Value} {below : List Frame}
    (hm : m.activations = ⟨u, ⟨kind, replay'⟩ :: below, subroutines, saved⟩ :: callers)
    (line : Line) (i : Interrupt) (replay : List Value) :
    Moves env (⟨u, ⟨kind, replay⟩ :: below, subroutines, saved⟩ :: callers)
      (m.interrupt env line i).activations := by
  cases i with
  | call name args => exact callFunction_moves hm line name args replay
  | fault f =>
    rw [interrupt, raise_activations, hm]
    exact .shift (.hold kind replay [] below) _ _ _

/-! ## Simple statements -/

theorem recorded_snd (m : Machine σ) (line : Line) (value : Option Value) :
    (m.recorded env line value).2 = m := by
  unfold recorded
  split <;> rfl

theorem recorded_moved {acts : List Activation} (h : Moves env acts m.activations) (line : Line)
    (value : Option Value) : Moved env acts (m.recorded env line value) := by
  unfold recorded
  cases hnext : m.nextLine? env with
  | some nextLine => exact ⟨h, nofun⟩
  | none => exact ⟨h, fun _ => .inl hnext⟩

section

variable {path : BlockPath} {next : Nat} {replay replay' : List Value} {below : List Frame}
  {stmt : Stmt}

/-- A jump that is made moves frames, and nothing else. -/
theorem jump_eq {m' : Machine σ} {label : String} (h : m.jump env label = some (.ok m')) :
    ∃ frames, m' = m.withFrames frames := by
  unfold jump at h
  split at h
  · rename_i hacts
    cases h
    exact ⟨[], by simp only [withFrames, mapTop, hacts]⟩
  split at h
  · cases h
  split at h
  · cases h
  split at h
  · cases h
  · cases h
    exact ⟨_, rfl⟩

/-- A subroutine call that is made puts the stack aside before. -/
theorem gosub_eq {m' : Machine σ} {label : String} (h : m.gosub env label = some (.ok m')) :
    ∃ frames, m' = (m.mapTop fun act =>
      { act with subroutines := act.frames :: act.subroutines }).withFrames frames := by
  unfold gosub at h
  split at h
  · rename_i hacts
    cases h
    exact ⟨[], by simp only [withFrames, mapTop, hacts]⟩
  split at h
  · cases h
  split at h
  · cases h
  · exact jump_eq h

/-- A jump goes where the table says, or is refused, or leads nowhere. The three ends are kept
apart, as the second is a fault of the script and the third a defect. -/
theorem jump_cases (env : Setting σ) {before : List Frame}
    (hm : m.activations = ⟨u, before, subroutines, saved⟩ :: callers) (label : String) :
    (m.jump env label = none ∧ ∃ target, env.program.label? u label = some target ∧
      ∀ root, env.program.unitRoot? u = some root → Frame.resume root target = none) ∨
    (m.jump env label = some (.error (.undefinedLabel label)) ∧
      env.program.label? u label = none) ∨
    ∃ target root frames, m.jump env label = some (.ok (m.withFrames frames)) ∧
      env.program.label? u label = some target ∧ env.program.unitRoot? u = some root ∧
      Frame.resume root target = some frames := by
  simp only [jump, hm]
  cases hlabel : env.program.label? u label with
  | none => exact .inr (.inl ⟨rfl, rfl⟩)
  | some target =>
    dsimp only
    cases hroot : env.program.unitRoot? u with
    | none => exact .inl ⟨rfl, target, rfl, nofun⟩
    | some root =>
      dsimp only
      cases hframes : Frame.resume root target with
      | none =>
        refine .inl ⟨rfl, target, rfl, fun root' h => ?_⟩
        cases h
        exact hframes
      | some frames => exact .inr (.inr ⟨target, root, frames, rfl, rfl, rfl, hframes⟩)

theorem gosub_cases (env : Setting σ) {before : List Frame}
    (hm : m.activations = ⟨u, before, subroutines, saved⟩ :: callers) (label : String) :
    (m.gosub env label = none ∧ ∃ target, env.program.label? u label = some target ∧
      ∀ root, env.program.unitRoot? u = some root → Frame.resume root target = none) ∨
    (∃ fault, m.gosub env label = some (.error fault)) ∨
    ∃ target root frames m', m.gosub env label = some (.ok m') ∧
      subroutines.length < env.options.maxCallDepth ∧ env.program.label? u label = some target ∧
      env.program.unitRoot? u = some root ∧ Frame.resume root target = some frames ∧
      m'.activations = ⟨u, frames, before :: subroutines, saved⟩ :: callers := by
  let put := m.mapTop fun act => { act with subroutines := act.frames :: act.subroutines }
  have hput : put.activations = ⟨u, before, before :: subroutines, saved⟩ :: callers := by
    simp only [put, mapTop, hm]
  by_cases hdepth : env.options.maxCallDepth ≤ subroutines.length
  · simp only [gosub, hm, if_pos hdepth]
    exact .inr (.inl ⟨_, rfl⟩)
  cases hlabel : env.program.label? u label with
  | none =>
    simp only [gosub, hm, if_neg hdepth, hlabel, Option.isNone_none, if_true]
    exact .inr (.inl ⟨_, rfl⟩)
  | some target =>
    -- the label was looked up before, so the jump itself cannot be refused
    have hgosub : m.gosub env label = put.jump env label := by
      simp only [gosub, hm, if_neg hdepth, hlabel, Option.isNone_some, Bool.false_eq_true,
        if_false, put]
    rw [hgosub, ← hlabel]
    obtain hnowhere | ⟨_, hnone⟩ | ⟨target, root, frames, hjump, hlabel, hroot, hframes⟩ :=
      jump_cases env hput label
    · exact .inl hnowhere
    · rw [hlabel] at hnone
      cases hnone
    · exact .inr
        (.inr ⟨target, root, frames, _, hjump, Nat.lt_of_not_le hdepth, hlabel, hroot, hframes,
          withFrames_activations hput frames⟩)

theorem passed_moves (hstmt : env.program.stmt? u ⟨path, next⟩ = some stmt)
    (simple : stmt.isStructured = false)
    (hm : m.activations =
      ⟨u, ⟨.block path (next + 1), replay'⟩ :: below, subroutines, saved⟩ :: callers)
    (replay : List Value) :
    Moves env (⟨u, ⟨.block path next, replay⟩ :: below, subroutines, saved⟩ :: callers)
      m.activations := by
  rw [hm]
  exact .shift (.pass hstmt simple replay replay' below) _ _ _

/-- A jump that is refused fails behind its statement: by then the block counts it as done. -/
theorem passed_raise_moves (hstmt : env.program.stmt? u ⟨path, next⟩ = some stmt)
    (simple : stmt.isStructured = false)
    (hm : m.activations =
      ⟨u, ⟨.block path (next + 1), replay'⟩ :: below, subroutines, saved⟩ :: callers)
    (line : Line) (fault : Fault) :
    Moves env (⟨u, ⟨.block path next, replay⟩ :: below, subroutines, saved⟩ :: callers)
      (m.raise line fault).activations := by
  rw [raise_activations, hm]
  exact .shift (.pass hstmt simple replay [] below) _ _ _

/-- A subroutine call puts the position behind it aside, and not its own. -/
theorem gosub_moved (hstmt : env.program.stmt? u ⟨path, next⟩ = some stmt)
    (simple : stmt.isStructured = false)
    (hm : m.activations =
      ⟨u, ⟨.block path (next + 1), replay'⟩ :: below, subroutines, saved⟩ :: callers)
    (line : Line) (label : String) :
    Moved env (⟨u, ⟨.block path next, replay⟩ :: below, subroutines, saved⟩ :: callers)
      (m.apply env line (.sub label)) := by
  obtain ⟨hgosub, target, hlabel, hmissing⟩ | ⟨fault, hgosub⟩ |
    ⟨target, root, frames, m', hgosub, shallow, hlabel, hroot, hframes, hm'⟩ :=
    gosub_cases env hm label
  · rw [apply, hgosub]
    exact ⟨passed_moves hstmt simple hm replay, fun _ => .inr (.label hlabel hmissing _ _ _ _)⟩
  · rw [apply, hgosub]
    exact .running (passed_raise_moves hstmt simple hm line fault)
  · rw [apply, hgosub]
    refine recorded_moved ?_ line none
    rw [hm']
    exact .gosub shallow hlabel hroot hframes path next replay replay' below saved callers

/-- A return leaves the subroutine in front if there is one, then the function, then the script.
Which of the three it is depends on the unit in front alone. -/
theorem ret_moves
    (hm : m.activations =
      ⟨u, ⟨.block path (next + 1), replay'⟩ :: below, subroutines, saved⟩ :: callers)
    (value : Option Value) :
    Moves env (⟨u, ⟨.block path next, replay⟩ :: below, subroutines, saved⟩ :: callers)
      (m.ret value).activations := by
  unfold ret
  rw [hm]
  cases subroutines with
  | cons caller older =>
    simp only [mapTop, hm]
    exact .ret u _ caller older saved callers
  | nil =>
    cases u with
    | main => exact .clear _
    | function name =>
      dsimp only
      rw [returnFromFunction_activations hm]
      exact .back (.inr rfl) saved callers _

/-- What a simple statement asks for once it is evaluated. The block stands behind the statement
already. -/
theorem apply_moved (hstmt : env.program.stmt? u ⟨path, next⟩ = some stmt)
    (simple : stmt.isStructured = false)
    (hm : m.activations =
      ⟨u, ⟨.block path (next + 1), replay'⟩ :: below, subroutines, saved⟩ :: callers)
    (line : Line) (effect : Effect) :
    Moved env (⟨u, ⟨.block path next, replay⟩ :: below, subroutines, saved⟩ :: callers)
      (m.apply env line effect) := by
  have passed := passed_moves hstmt simple hm replay
  cases effect with
  | value v => exact recorded_moved passed line v
  | delay ns v => exact recorded_moved (m := { m with delay := some ns }) passed line (some v)
  | suspend => exact recorded_moved (m := { m with suspended := true }) passed line none
  | exit status => exact recorded_moved (m := m.terminate status) (.clear _) line status
  | jump label =>
    obtain ⟨hjump, target, hlabel, hmissing⟩ | ⟨hjump, _⟩ |
      ⟨target, root, frames, hjump, hlabel, hroot, hframes⟩ := jump_cases env hm label
    · simp only [apply, hjump]
      exact ⟨passed, fun _ => .inr (.label hlabel hmissing _ _ _ _)⟩
    · simp only [apply, hjump]
      exact .running (passed_raise_moves hstmt simple hm line _)
    · simp only [apply, hjump]
      refine recorded_moved ?_ line none
      rw [withFrames_activations hm]
      exact .jump hlabel hroot hframes _ _ _ _
  | sub label => exact gosub_moved hstmt simple hm line label
  | ret v => exact recorded_moved (ret_moves hm v) line v

end

/-! ## Faults -/

theorem handle_cases (env : Setting σ) (m : Machine σ) (failure : Failure) (c : Caught) :
    (∃ m', m.handle env failure c = some m' ∧ m'.activations =
      { c.activation with frames := c.handler.frames ++ c.activation.frames } :: c.callers) ∨
    m.handle env failure c = none ∧ ∃ place, c.handler = .tryCatch place ∧
      ∀ stmt, env.program.stmt? c.activation.unit place = some stmt →
        ¬ (FrameKind.tryCatch place .body).Runs stmt := by
  unfold handle
  cases hhandler : c.handler with
  | retry place attempt max => exact .inl ⟨_, rfl, rfl⟩
  | tryCatch place =>
    dsimp only
    split
    · rename_i body catchVar handler line hstmt
      left
      cases catchVar with
      | none => exact ⟨_, rfl, rfl⟩
      | some name =>
        dsimp only
        split
        · exact ⟨_, rfl, rfl⟩
        · exact ⟨_, rfl, raise_activations _ _ _⟩
    · rename_i hother
      refine .inr ⟨rfl, place, rfl, ?_⟩
      rintro _ hstmt ⟨⟩
      exact hother _ _ _ _ hstmt

/-- A fault ends the run, or starts the handler that is found, or goes astray. It ends the run also
if it is terminal, and then no handler is looked for. -/
theorem unwind_moved (env : Setting σ) (m : Machine σ) (failure : Failure) :
    Moved env m.activations (m.unwind env failure) := by
  unfold unwind
  split
  · exact ⟨.clear _, nofun⟩
  cases hfound : findCaught m.scope m.activations with
  | error scope => exact ⟨.clear _, nofun⟩
  | ok c =>
    dsimp only
    obtain ⟨m', hhandle, hm'⟩ | ⟨hhandle, place, hplace, hother⟩ :=
      handle_cases env m failure c
    · rw [hhandle]
      refine .running ?_
      rw [hm']
      exact .caught hfound
    · rw [hhandle]
      exact ⟨.stay _, fun _ => .inr (.handler hfound hplace hother)⟩

/-! ## Micro-steps -/

/-- A cancellation is heeded if there is a line to heed it on, and else changes nothing. That there
is none while units are left is a defect, and its reason is that nothing is where the machine
stands. -/
theorem heedCancel_cases (env : Setting σ) (m : Machine σ) :
    m.heedCancel env = some m ∨ (m.heedCancel env = none ∧ m.nextLine? env = none) ∨
      ∃ line, m.heedCancel env = some (m.raise line .cancelled) := by
  unfold heedCancel
  split
  · cases hnext : m.nextLine? env with
    | none => exact .inr (.inl ⟨rfl, rfl⟩)
    | some line => exact .inr (.inr ⟨line, rfl⟩)
  · exact .inl rfl

theorem tick_cancelled {line : Line} (h : m.heedCancel env = some (m.raise line .cancelled)) :
    m.tick env = (.failed ⟨line, .cancelled⟩,
      { m.raise line .cancelled with activations := [], pending := none }) := by
  rw [tick, h]
  rfl

end Machine

end Stepwise
