import Stepwise.Cli.Launch
import Stepwise.Proofs.ClosedStatements
import Stepwise.Proofs.KeyOrder
import Stepwise.Proofs.Pausing
import Stepwise.Proofs.ReplayLists

/-!
# Every struct of a run is in key order

A machine carries values in its variables, in the results that wait on replay lists, in the bindings
that parameters shadow, in a fault that looks for a handler and in the status that it ends with
(`Machine.Ordered`). A micro-step moves them from one of these places to another and makes new ones
only by running a statement or by evaluating a header, so it keeps all of them in order
(`Machine.Ordered.tick`), and so does a whole run (`Machine.Ordered.run`), as long as the owner of
the machine writes nothing else into its variables.

Values come into a run from two sides, its inputs and the answers of its services. Those of a
command are read from JSON and from TOML, and are in order by the way they are read
(`Cli.launchRun_ordered`). So a command never holds a struct that is out of order, and **a variable
is read back from its tagged form as soon as its numbers are finite**
(`Cli.Job.Ordered.reads_back`).

## Why this is followed through the whole machine

A struct is a list of fields, and its type does not say that they are listed by key. It could, but
then every function that takes a struct apart or builds one would have to show it in place. Here the
functions stay plain, and the order is an invariant: `Proofs/KeyOrder` has it for values,
`Proofs/ClosedStatements` for statements, as for any property that operations keep, and this module
for all that comes after. The lemmas follow the operations of the machine and are named like them,
so that a change to an operation has one lemma to look at.

Statements about a single value ask for its order where they need it, as those of `Proofs/JsonText`
and `Proofs/TaggedValues` do. What is shown here is that this is no condition on a script.
-/

namespace Stepwise

open Relation (ReflTransGen)

/-! ## Machines -/

/-- The values of all variables are in order. That the variables themselves are listed by name is
another matter, and no value depends on it. -/
abbrev Scope.Ordered (s : Scope) : Prop := s.All Value.Ordered

/-- The answers of a host are in order. -/
abbrev Host.Ordered {σ : Type} (host : Host σ) : Prop := host.Answers Value.Ordered

/-- What a fault takes along is in order. A machine may also have a fault pending that is not about
values, and such a fault takes nothing along. -/
def Fault.Ordered : Fault → Prop
  | .thrown v => v.Ordered
  | _ => True

namespace Fault

variable {f : Fault}

theorem OfValues.ordered (h : f.OfValues Value.Ordered) : f.Ordered := by
  cases f with
  | thrown v => exact h
  | _ => trivial

theorem Ordered.payload (h : f.Ordered) : f.payload.Ordered := by
  cases f with
  | thrown v => exact h
  | _ => exact .error _

end Fault

/-- The results on the list of a frame are in order. -/
def Frame.Ordered (f : Frame) : Prop := ∀ v ∈ f.replay, v.Ordered

theorem Frame.Clean.ordered {frames : List Frame} (h : Clean frames) :
    ∀ f ∈ frames, f.Ordered := by
  intro f hf
  rw [Frame.Ordered, h f hf]
  exact List.forall_mem_nil _

/-- All values that a unit keeps are in order: results that wait, in its own stack or in one that
was put aside, and bindings that its parameters shadow. -/
structure Activation.Ordered (act : Activation) : Prop where
  frames : ∀ f ∈ act.frames, f.Ordered
  aside : ∀ stack ∈ act.subroutines, ∀ f ∈ stack, f.Ordered
  saved : ∀ entry ∈ act.saved, ∀ v ∈ entry.2, v.Ordered

/-- All values that a machine holds are in order. The four fields are all the places that a value
can be at: the log of the host belongs to the host. -/
structure Machine.Ordered {σ : Type} (m : Machine σ) : Prop where
  scope : m.scope.Ordered
  activations : ∀ act ∈ m.activations, act.Ordered
  pending : ∀ f ∈ m.pending, f.fault.Ordered
  exitStatus : ∀ v ∈ m.exitStatus, v.Ordered

/-- The values that a micro-step shows are in order. -/
def Tick.Ordered : Tick → Prop
  | .record r => ∀ v ∈ r.value, v.Ordered
  | .failed f => f.fault.Ordered
  | .running | .done | .defect => True

namespace Activation.Ordered

variable {act : Activation}

theorem new (u : CodeUnit) {saved : List (String × Option Value)}
    (hsaved : ∀ entry ∈ saved, ∀ v ∈ entry.2, v.Ordered) :
    (Activation.new u saved).Ordered :=
  ⟨(Frame.Clean.new _ .nil).ordered, List.forall_mem_nil _, hsaved⟩

theorem mapFrame {f : Frame → Frame} (hf : ∀ frame, frame.Ordered → (f frame).Ordered)
    {acts : List Activation} (h : ∀ act ∈ acts, act.Ordered) :
    ∀ act ∈ Activation.mapFrame f acts, act.Ordered := by
  rcases acts with _ | ⟨⟨u, _ | ⟨frame, below⟩, subroutines, saved⟩, rest⟩
  · exact h
  · exact h
  · obtain ⟨hfront, hrest⟩ := List.forall_mem_cons.mp h
    obtain ⟨hframe, hbelow⟩ := List.forall_mem_cons.mp hfront.frames
    refine List.forall_mem_cons.mpr ⟨⟨?_, hfront.aside, hfront.saved⟩, hrest⟩
    exact List.forall_mem_cons.mpr ⟨hf frame hframe, hbelow⟩

end Activation.Ordered

namespace Machine

variable {σ : Type} {env : Setting σ} {m : Machine σ}

namespace Ordered

theorem new {scope : Scope} (h : scope.Ordered) (world : σ) : (Machine.new scope world).Ordered :=
  ⟨h, List.forall_mem_cons.mpr ⟨.new _ (List.forall_mem_nil _), List.forall_mem_nil _⟩,
    nofun, nofun⟩

theorem withScope (h : m.Ordered) {scope : Scope} (hscope : scope.Ordered) :
    (m.withScope scope).Ordered :=
  ⟨hscope, h.activations, h.pending, h.exitStatus⟩

theorem withFrames (h : m.Ordered) {frames : List Frame} (hframes : ∀ f ∈ frames, f.Ordered) :
    (m.withFrames frames).Ordered := by
  unfold Machine.withFrames mapTop
  split
  · exact h
  · rename_i act rest hacts
    obtain ⟨hact, hrest⟩ := List.forall_mem_cons.mp (hacts ▸ h.activations)
    refine ⟨h.scope, List.forall_mem_cons.mpr ⟨⟨hframes, hact.aside, hact.saved⟩, hrest⟩,
      h.pending, h.exitStatus⟩

theorem mapFrame (h : m.Ordered) {f : Frame → Frame}
    (hf : ∀ frame, frame.Ordered → (f frame).Ordered) : (m.mapFrame f).Ordered := by
  have hacts : ∀ act ∈ (m.mapFrame f).activations, act.Ordered := by
    rw [mapFrame_activations]
    exact Activation.Ordered.mapFrame hf h.activations
  unfold Machine.mapFrame mapTop at hacts ⊢
  split
  · exact h
  · rename_i act rest hfront
    simp only [hfront] at hacts
    exact ⟨h.scope, hacts, h.pending, h.exitStatus⟩

/-- A fault empties the list of results in front and is noted in a variable, as a text. -/
theorem raise (h : m.Ordered) (line : Line) {fault : Fault} (hfault : fault.Ordered) :
    (m.raise line fault).Ordered := by
  have hcleared : (m.mapFrame fun frame => { frame with replay := [] }).Ordered :=
    h.mapFrame fun _ _ => List.forall_mem_nil _
  refine ⟨hcleared.scope.noteFailure Value.Ordered.closed _, hcleared.activations, ?_,
    hcleared.exitStatus⟩
  rintro f ⟨⟩
  exact hfault

/-- The shadowed bindings go back into the scope, and the value goes to the end of the list that
waits for it. -/
theorem returnFromFunction (h : m.Ordered) {v : Value} (hv : v.Ordered) :
    (m.returnFromFunction v).Ordered := by
  unfold Machine.returnFromFunction
  split
  · exact h
  · rename_i act rest hacts
    obtain ⟨hact, hrest⟩ := List.forall_mem_cons.mp (hacts ▸ h.activations)
    have hleft : ({ m.withScope (m.scope.restoreAll act.saved) with activations := rest } :
        Machine σ).Ordered :=
      ⟨h.scope.restoreAll hact.saved, hrest, h.pending, h.exitStatus⟩
    refine hleft.mapFrame fun frame hframe w hw => ?_
    obtain hw | hw := List.mem_append.mp hw
    · exact hframe w hw
    · exact List.mem_singleton.mp hw ▸ hv

theorem terminate (h : m.Ordered) {status : Option Value} (hstatus : ∀ v ∈ status, v.Ordered) :
    (m.terminate status).Ordered :=
  ⟨h.scope, List.forall_mem_nil _, h.pending, hstatus⟩

/-- A subroutine that returns hands nothing on; a function hands its value on, and the script ends
with it as its status. -/
theorem ret (h : m.Ordered) {value : Option Value} (hvalue : ∀ v ∈ value, v.Ordered) :
    (m.ret value).Ordered := by
  unfold Machine.ret
  split
  · exact h
  · rename_i act rest hacts
    obtain ⟨hact, hrest⟩ := List.forall_mem_cons.mp (hacts ▸ h.activations)
    split
    · rename_i frames older hsubs
      obtain ⟨hframes, holder⟩ := List.forall_mem_cons.mp (hsubs ▸ hact.aside)
      simp only [mapTop, hacts]
      exact ⟨h.scope, List.forall_mem_cons.mpr ⟨⟨hframes, holder, hact.saved⟩, hrest⟩,
        h.pending, h.exitStatus⟩
    · split
      · refine h.returnFromFunction ?_
        cases value with
        | none => exact .null
        | some v => exact hvalue v rfl
      · exact h.terminate hvalue

theorem jump (h : m.Ordered) {label : String} {r : Except Fault (Machine σ)}
    (hjump : m.jump env label = some r) : Fares Fault.Ordered Machine.Ordered r := by
  unfold Machine.jump at hjump
  split at hjump
  · cases hjump
    exact h
  split at hjump
  · cases hjump
    trivial
  split at hjump
  · cases hjump
  split at hjump
  · cases hjump
  · rename_i frames hresume
    cases hjump
    exact h.withFrames (Frame.Clean.resume hresume).ordered

/-- The stack that is put aside was the stack in front, and the one that comes in its place has no
results yet. -/
theorem gosub (h : m.Ordered) {label : String} {r : Except Fault (Machine σ)}
    (hgosub : m.gosub env label = some r) : Fares Fault.Ordered Machine.Ordered r := by
  unfold Machine.gosub at hgosub
  split at hgosub
  · cases hgosub
    exact h
  rename_i act rest hacts
  split at hgosub
  · cases hgosub
    trivial
  split at hgosub
  · cases hgosub
    trivial
  · obtain ⟨hact, hrest⟩ := List.forall_mem_cons.mp (hacts ▸ h.activations)
    refine Ordered.jump ?_ hgosub
    simp only [mapTop, hacts]
    have haside : ∀ stack ∈ act.frames :: act.subroutines, ∀ f ∈ stack, f.Ordered :=
      List.forall_mem_cons.mpr ⟨hact.frames, hact.aside⟩
    exact ⟨h.scope, List.forall_mem_cons.mpr ⟨⟨hact.frames, haside, hact.saved⟩, hrest⟩,
      h.pending, h.exitStatus⟩

/-- A function is refused or put in front, and takes along the bindings that its parameters
shadow. -/
theorem callFunction (h : m.Ordered) (line : Line) (name : String) {args : List Value}
    (hargs : ∀ v ∈ args, v.Ordered) : (m.callFunction env line name args).Ordered := by
  unfold Machine.callFunction
  split
  · exact h.raise line trivial
  split
  · exact h.raise line trivial
  split
  · exact h.raise line trivial
  rename_i d _ _ _
  have hpairs : ∀ pair ∈ d.params.zip args, pair.2.Ordered :=
    fun pair hpair => hargs pair.2 (List.of_mem_zip hpair).2
  obtain ⟨hresult, hscope⟩ := bindParams_all h.scope (List.forall_mem_nil _) hpairs
  split
  · rename_i f scope hbind
    rw [hbind] at hresult hscope
    exact (h.withScope hscope).raise line hresult.ordered
  · rename_i saved scope hbind
    rw [hbind] at hresult hscope
    exact ⟨hscope, List.forall_mem_cons.mpr ⟨.new _ hresult, h.activations⟩, h.pending,
      h.exitStatus⟩

theorem interrupt (h : m.Ordered) (line : Line) {i : Interrupt} (hi : i.OfValues Value.Ordered) :
    (m.interrupt env line i).Ordered := by
  cases i with
  | fault f => exact h.raise line (Fault.OfValues.ordered hi)
  | call name args => exact h.callFunction line name hi

end Ordered

/-! ## Micro-steps -/

/-- What a micro-step shows and what it leaves are in order. -/
def InOrder (r : Tick × Machine σ) : Prop := r.1.Ordered ∧ r.2.Ordered

theorem chooseBranch_ordered {c : EvalContext σ} (hc : c.Within Value.Ordered) (line : Line)
    (index : Nat) (branches : List Branch) (st : EvalState σ)
    (hst : ∀ v ∈ st.replay, v.Ordered) :
    Fares (Interrupt.OfValues Value.Ordered) Anything
        (chooseBranch c line index branches st).1.2 ∧
      ∀ v ∈ (chooseBranch c line index branches st).2.replay, v.Ordered := by
  induction branches generalizing index st with
  | nil => exact ⟨trivial, hst⟩
  | cons branch rest ih =>
    obtain ⟨test, block⟩ := branch
    obtain ⟨hresult, hafter⟩ := Eval.Keeps.expr hc test st hst
    rw [chooseBranch_cons]
    rcases hrun : (Eval.expr c test).run st with ⟨i | v, st'⟩
    · rw [show (Eval.expr c test).run.run st = _ from hrun] at hresult hafter
      exact ⟨hresult, hafter⟩
    · rw [show (Eval.expr c test).run.run st = _ from hrun] at hafter
      dsimp only
      split
      · exact ⟨trivial, hafter⟩
      · exact ih (index + 1) st' hafter

/-- What a handler is found in. -/
structure Caught.Ordered (c : Caught) : Prop where
  activation : c.activation.Ordered
  callers : ∀ act ∈ c.callers, act.Ordered
  scope : c.scope.Ordered

/-- Looking for a handler leaves functions, and each gives its bindings back. The scope is in order
also if no handler is found, as the run then ends with it. -/
theorem findCaught_ordered {scope : Scope} {acts : List Activation} (hscope : scope.Ordered)
    (h : ∀ act ∈ acts, act.Ordered) :
    Fares Scope.Ordered Caught.Ordered (findCaught scope acts) := by
  induction acts generalizing scope with
  | nil => exact hscope
  | cons act callers ih =>
    obtain ⟨hact, hcallers⟩ := List.forall_mem_cons.mp h
    rw [findCaught]
    split
    · rename_i handler frames subroutines hfind
      obtain ⟨newer, above, f, heq, -⟩ := Frame.findInStacks_some hfind
      -- what is left of the stacks is the lower part of one of them, and the stacks behind it
      have hstacks : ∀ stack ∈ act.frames :: act.subroutines, ∀ f ∈ stack, f.Ordered :=
        List.forall_mem_cons.mpr ⟨hact.frames, hact.aside⟩
      rw [heq] at hstacks
      obtain ⟨hstack, holder⟩ := List.forall_mem_cons.mp (List.forall_mem_append.mp hstacks).2
      have hframes := (List.forall_mem_cons.mp (List.forall_mem_append.mp hstack).2).2
      exact ⟨⟨hframes, holder, hact.saved⟩, hcallers, hscope⟩
    · split
      · exact hscope
      · exact ih (hscope.restoreAll hact.saved) hcallers

namespace Ordered

/-- A handler starts with the payload of the fault in its variable. If that is a constant, this is a
fault again. -/
theorem handle (h : m.Ordered) {c : Caught} (hc : Caught.Ordered c) {failure : Failure}
    (hfailure : failure.fault.Ordered) {m' : Machine σ}
    (hhandle : m.handle env failure c = some m') :
    m'.Ordered := by
  -- the machine that every kind of handler starts from
  have hpushed : ({ m.withScope c.scope with
      activations :=
        { c.activation with frames := c.handler.frames ++ c.activation.frames } :: c.callers
      pending := none } : Machine σ).Ordered := by
    refine ⟨hc.scope,
      List.forall_mem_cons.mpr ⟨⟨?_, hc.activation.aside, hc.activation.saved⟩, hc.callers⟩,
      nofun, h.exitStatus⟩
    exact List.forall_mem_append.mpr ⟨(Frame.Clean.handler _).ordered, hc.activation.frames⟩
  unfold Machine.handle at hhandle
  dsimp only at hhandle
  split at hhandle
  · rename_i hhandler
    rw [hhandler] at hpushed
    cases hhandle
    exact hpushed
  · rename_i place hhandler
    rw [hhandler] at hpushed
    split at hhandle
    · split at hhandle
      · cases hhandle
        exact hpushed
      · rename_i name _
        -- the payload goes into the variable, or the attempt to bind it is the new fault
        have hset := hc.scope.set name hfailure.payload
        split at hhandle
        · rename_i scope hok
          cases hhandle
          rw [show c.scope.set name failure.fault.payload = .ok scope from hok] at hset
          exact hpushed.withScope hset
        · rename_i f herror
          cases hhandle
          rw [show c.scope.set name failure.fault.payload = .error f from herror] at hset
          exact hpushed.raise _ (Fault.OfValues.ordered hset)
    · cases hhandle

theorem recorded (h : m.Ordered) (line : Line) {value : Option Value}
    (hvalue : ∀ v ∈ value, v.Ordered) : InOrder (m.recorded env line value) := by
  unfold Machine.recorded
  split
  · exact ⟨hvalue, h⟩
  · exact ⟨trivial, h⟩

/-- What a statement asks for, case by case. A jump that is refused is a fault, and one that leads
nowhere a defect; both leave the values as they are. -/
theorem apply (h : m.Ordered) (line : Line) {effect : Effect}
    (heffect : effect.All Value.Ordered) :
    InOrder (m.apply env line effect) := by
  -- a record of a statement without a value shows none
  have nothing : ∀ v ∈ (none : Option Value), v.Ordered := nofun
  cases effect with
  | value v => exact h.recorded line heffect
  | jump label =>
    rw [Machine.apply]
    split
    · exact ⟨trivial, h⟩
    · rename_i f hjump
      exact ⟨trivial, h.raise line (h.jump hjump)⟩
    · rename_i m' hjump
      exact Ordered.recorded (h.jump hjump) line nothing
  | sub label =>
    rw [Machine.apply]
    split
    · exact ⟨trivial, h⟩
    · rename_i f hgosub
      exact ⟨trivial, h.raise line (h.gosub hgosub)⟩
    · rename_i m' hgosub
      exact Ordered.recorded (h.gosub hgosub) line nothing
  | ret v => exact (h.ret heffect).recorded line heffect
  | exit status => exact (h.terminate heffect).recorded line heffect
  | delay ns v =>
    have hasked : ({ m with delay := some ns } : Machine σ).Ordered :=
      ⟨h.scope, h.activations, h.pending, h.exitStatus⟩
    refine hasked.recorded line ?_
    rintro w ⟨⟩
    exact heffect
  | suspend =>
    have hasked : ({ m with suspended := true } : Machine σ).Ordered :=
      ⟨h.scope, h.activations, h.pending, h.exitStatus⟩
    exact hasked.recorded line nothing

/-- An evaluation that is over hands its value on, and one that stopped is dealt with. The value of
a header is a number or a truth value, so nothing is asked of it. -/
theorem settle {α : Type} (h : m.Ordered) (kind : FrameKind) {below : List Frame} (line : Line)
    {r : Except Interrupt α × List Value × Store σ} {k : Machine σ → α → Machine σ}
    (hbelow : ∀ f ∈ below, f.Ordered)
    (hresult : Fares (Interrupt.OfValues Value.Ordered) Anything r.1)
    (hreplay : ∀ v ∈ r.2.1, v.Ordered) (hscope : r.2.2.scope.Ordered)
    (hk : ∀ m' a, m'.Ordered → (k m' a).Ordered) :
    InOrder (m.settle env kind below line r k) := by
  obtain ⟨result, replay, store⟩ := r
  have hstored : ({ m with store } : Machine σ).Ordered :=
    ⟨hscope, h.activations, h.pending, h.exitStatus⟩
  have hframes : ∀ f ∈ (⟨kind, replay⟩ : Frame) :: below, f.Ordered :=
    List.forall_mem_cons.mpr ⟨hreplay, hbelow⟩
  cases result with
  | ok a => exact ⟨trivial, hk _ a (hstored.withFrames hframes)⟩
  | error i => exact ⟨trivial, (hstored.withFrames hframes).interrupt line hresult⟩

variable {u : CodeUnit} {place : StmtPath} {replay : List Value} {below : List Frame}

section

variable (host : env.host.Ordered) (h : m.Ordered) (hreplay : ∀ v ∈ replay, v.Ordered)
  (hbelow : ∀ f ∈ below, f.Ordered)

include host h hreplay hbelow

theorem runBlock (path : BlockPath) (next : Nat) :
    InOrder (m.runBlock env u path next replay below) := by
  have hpassed : ∀ f ∈ (⟨.block path (next + 1), replay⟩ : Frame) :: below, f.Ordered :=
    List.forall_mem_cons.mpr ⟨hreplay, hbelow⟩
  unfold Machine.runBlock
  split
  · exact ⟨trivial, h⟩
  split
  · exact ⟨trivial, h.withFrames hbelow⟩
  dsimp only
  split
  · refine ⟨trivial, h.withFrames ?_⟩
    exact List.forall_mem_append.mpr ⟨(Frame.Clean.enter _ _).ordered, hpassed⟩
  split
  · exact ⟨trivial, h⟩
  · rename_i r hexec
    -- scope, results and outcome of the statement, all three at once
    have hr := Stmt.execute_all Value.Ordered.closed host h.scope hreplay hexec
    have hresult := hr.result
    have hstored : ({ m with store := r.store } : Machine σ).Ordered :=
      ⟨hr.scope, h.activations, h.pending, h.exitStatus⟩
    split
    · rename_i effect heffect
      rw [heffect] at hresult
      refine Ordered.apply (hstored.withFrames ?_) _ hresult
      exact List.forall_mem_cons.mpr ⟨hr.replay, hbelow⟩
    · rename_i i hi
      rw [hi] at hresult
      refine ⟨trivial, (hstored.withFrames ?_).interrupt _ hresult⟩
      exact List.forall_mem_cons.mpr ⟨hr.replay, hbelow⟩

/-- A branch starts with empty lists of results, and the list of the header is empty once it has its
value. -/
theorem runCondition (phase : ConditionPhase) :
    InOrder (m.runCondition env u place phase replay below) := by
  have hc := Setting.context_within Value.Ordered.closed host h.scope
  -- frames that start have no results
  have started : ∀ (m' : Machine σ) (sel : BlockSel), m'.Ordered → (m'.withFrames
      (Frame.block (place.child sel) 0 :: Frame.new (.condition place .branch) ::
        below)).Ordered := by
    intro m' sel hm'
    refine hm'.withFrames (List.forall_mem_cons.mpr ⟨List.forall_mem_nil _, ?_⟩)
    exact List.forall_mem_cons.mpr ⟨List.forall_mem_nil _, hbelow⟩
  unfold Machine.runCondition
  split
  · rename_i branches otherwise line hstmt
    cases phase with
    | branch => exact ⟨trivial, h.withFrames hbelow⟩
    | test =>
      dsimp only
      have hchosen := chooseBranch_ordered hc line 0 branches ⟨replay, 0, m.store.world⟩ hreplay
      obtain ⟨hresult, hafter⟩ := hchosen
      rcases hrun : chooseBranch (env.context m.store) line 0 branches
        ⟨replay, 0, m.store.world⟩
        with ⟨⟨testLine, result⟩, st⟩
      rw [hrun] at hresult hafter
      rw [Store.run_eq hrun]
      refine h.settle _ testLine hbelow hresult ?_ h.scope ?_
      -- a call that is made keeps the results so far, and anything else drops them
      · dsimp only
        split
        · exact hafter
        · exact List.forall_mem_nil _
      · intro m' chosen hm'
        split
        · exact started m' _ hm'
        · exact started m' _ hm'
        · exact hm'.withFrames hbelow
  · exact ⟨trivial, h⟩

/-- A test decides between the body and what is below. Loops and retries share it; a retry also asks
whether an attempt is left, which is the parameter `again`. -/
theorem test {kind kind' : FrameKind} {test : Expr} {again : Bool → Bool} (line : Line) :
    InOrder (m.settle env kind below line (m.evalTest env replay test) fun m holds =>
      if again holds then
        m.withFrames (Frame.block (place.child .body) 0 :: Frame.new kind' :: below)
      else m.withFrames below) := by
  have hc := Setting.context_within Value.Ordered.closed host h.scope
  obtain ⟨hresult, hafter, hscope⟩ := Store.run_all (Q := Anything)
    (e := fun c => do return (← Eval.expr c test).isTruthy) h.scope hreplay
    (.bind (.expr hc test) fun _ _ => .pure trivial)
  refine h.settle kind line hbelow hresult hafter hscope ?_
  intro m' holds hm'
  split
  · refine hm'.withFrames (List.forall_mem_cons.mpr ⟨List.forall_mem_nil _, ?_⟩)
    exact List.forall_mem_cons.mpr ⟨List.forall_mem_nil _, hbelow⟩
  · exact hm'.withFrames hbelow

theorem runLoop (kind : LoopPhase → FrameKind) (phase : LoopPhase) :
    InOrder (m.runLoop env u place kind phase replay below) := by
  unfold Machine.runLoop
  cases phase with
  | body => exact ⟨trivial, h.withFrames (List.forall_mem_cons.mpr ⟨hreplay, hbelow⟩)⟩
  | test =>
    dsimp only
    split
    · exact h.test host hreplay hbelow _
    · exact h.test host hreplay hbelow _
    · exact ⟨trivial, h⟩

theorem runRetry (phase : RetryPhase) (attempt max : UInt32) :
    InOrder (m.runRetry env u place phase attempt max replay below) := by
  have hc := Setting.context_within Value.Ordered.closed host h.scope
  unfold Machine.runRetry
  dsimp only
  split
  · rename_i attempts body test line hstmt
    cases phase with
    | enter =>
      obtain ⟨hresult, hafter, hscope⟩ := Store.run_all (Q := Anything)
        (e := fun c => do Eval.ofExcept (attemptsOf (← Eval.expr c attempts))) h.scope hreplay
        (.bind (.expr hc attempts) fun v _ => .ofExcept (attemptsOf_gives v))
      refine h.settle _ _ hbelow hresult hafter hscope fun m' n hm' => ?_
      refine hm'.withFrames (List.forall_mem_cons.mpr ⟨List.forall_mem_nil _, ?_⟩)
      exact List.forall_mem_cons.mpr ⟨List.forall_mem_nil _, hbelow⟩
    | body =>
      cases test with
      | none => exact ⟨trivial, h.withFrames hbelow⟩
      | some test =>
        exact ⟨trivial, h.withFrames (List.forall_mem_cons.mpr ⟨hreplay, hbelow⟩)⟩
    | test =>
      cases test with
      | none => exact ⟨trivial, h.withFrames hbelow⟩
      | some test => exact h.test host hreplay hbelow _
  · exact ⟨trivial, h⟩

end

/-- A fault that nothing catches ends the run with the scope that all functions have given back
to. -/
theorem unwind (h : m.Ordered) {failure : Failure} (hfailure : failure.fault.Ordered) :
    InOrder (m.unwind env failure) := by
  have cleared : ∀ s : Scope, s.Ordered →
      ({ m.withScope s with activations := [], pending := none } : Machine σ).Ordered :=
    fun s hs => ⟨hs, List.forall_mem_nil _, nofun, h.exitStatus⟩
  have hfound := findCaught_ordered h.scope h.activations
  unfold Machine.unwind
  split
  · exact ⟨hfailure, cleared m.scope h.scope⟩
  split
  · rename_i scope hfind
    rw [hfind] at hfound
    exact ⟨hfailure, cleared scope hfound⟩
  · rename_i c hfind
    rw [hfind] at hfound
    split
    · rename_i m' hhandle
      exact ⟨trivial, h.handle hfound hfailure hhandle⟩
    · exact ⟨trivial, h⟩

/-- **A micro-step keeps all values of a machine in order**, and shows only such values, if what its
host answers is in order. -/
theorem tick (host : env.host.Ordered) (h : m.Ordered) : InOrder (m.tick env) := by
  obtain hheed | ⟨hheed, -⟩ | ⟨line, hheed⟩ := heedCancel_cases env m
  · rw [Machine.tick, hheed]
    dsimp only
    cases hpending : m.pending with
    | some failure => exact h.unwind (h.pending failure hpending)
    | none =>
      dsimp only
      cases hm : m.activations with
      | nil => exact ⟨trivial, h⟩
      | cons act callers =>
        obtain ⟨hact, -⟩ := List.forall_mem_cons.mp (hm ▸ h.activations)
        obtain ⟨u, frames, subroutines, saved⟩ := act
        cases frames with
        | nil =>
          cases u with
          | main =>
            rw [← hpending]
            exact ⟨trivial, h.scope, List.forall_mem_nil _, h.pending, h.exitStatus⟩
          | function name => exact ⟨trivial, h.returnFromFunction .null⟩
        -- all that the frame works with is in order: its own results, and the frames under it
        | cons frame below =>
          obtain ⟨hreplay, hbelow⟩ := List.forall_mem_cons.mp hact.frames
          obtain ⟨kind, replay⟩ := frame
          cases kind with
          | block path next => exact h.runBlock host hreplay hbelow path next
          | condition place phase => exact h.runCondition host hreplay hbelow phase
          | cycle place phase => exact h.runLoop host hreplay hbelow _ phase
          | doCycle place phase => exact h.runLoop host hreplay hbelow _ phase
          | retry place phase attempt max =>
            exact h.runRetry host hreplay hbelow phase attempt max
          | tryCatch place phase => exact ⟨trivial, h.withFrames hbelow⟩
  · rw [Machine.tick, hheed]
    exact ⟨trivial, h⟩
  · rw [tick_cancelled hheed]
    -- a cancellation carries no value
    have hraised : (m.raise line .cancelled).Ordered := h.raise line trivial
    refine ⟨trivial, hraised.scope, List.forall_mem_nil _, ?_, hraised.exitStatus⟩
    rintro f ⟨⟩

/-- An act keeps the order if the owner of the machine puts no other values into its scope. Apart
from that an owner only sets flags. -/
theorem act (host : env.host.Ordered) (h : m.Ordered) {m' : Machine σ} (hact : Acts env m m')
    (hscope : m'.scope.Ordered) : m'.Ordered := by
  cases hact with
  | tick => exact (h.tick host).2
  | finish => exact ⟨h.scope, h.activations, h.pending, h.exitStatus⟩
  | handled hhandled =>
    cases hhandled with
    | takeDelay => exact ⟨h.scope, h.activations, h.pending, h.exitStatus⟩
    | resume => exact ⟨h.scope, h.activations, h.pending, h.exitStatus⟩
    | cancel => exact ⟨h.scope, h.activations, h.pending, h.exitStatus⟩
    | operate _ => exact h.withScope hscope

/-- **All values of a run are in order**, if those are that it starts with, that its host answers
and that its owner puts into the scope. -/
theorem run (host : env.host.Ordered) (h : m.Ordered) {m' : Machine σ}
    (run : ReflTransGen (fun m m' => Acts env m m' ∧ m'.scope.Ordered) m m') : m'.Ordered := by
  induction run with
  | refl => exact h
  | tail _ hact ih => exact ih.act host hact.1 hact.2

theorem step (host : env.host.Ordered) (h : m.Ordered) (fuel : Nat) :
    (m.step env fuel).2.Ordered := by
  induction fuel generalizing m with
  | zero =>
    unfold Machine.step
    split <;> exact h
  | succ fuel ih =>
    unfold Machine.step
    split
    · exact h
    have htick := (h.tick host).2
    rcases hnext : m.tick env with ⟨tick, m'⟩
    rw [hnext] at htick
    cases tick with
    | running => exact ih htick
    | record | done | failed =>
      exact ⟨htick.scope, htick.activations, htick.pending, htick.exitStatus⟩
    | defect => exact htick

theorem advance (host : env.host.Ordered) (h : m.Ordered) (stop : Line → Bool) (fuel : Nat) :
    (m.advance env stop fuel).2.Ordered := by
  induction fuel generalizing m with
  | zero =>
    unfold Machine.advance
    split <;> exact h
  | succ fuel ih =>
    obtain ⟨hstopped, -⟩ | ⟨hdefect, -⟩ | ⟨hbehind, -⟩ := advance_cases env stop fuel m
    · rw [hstopped]
      exact h
    · rw [hdefect]
      exact h
    · rw [hbehind]
      have htick := (h.tick host).2
      rcases hnext : m.tick env with ⟨tick, m'⟩
      rw [hnext] at htick
      cases tick with
      | running => exact ih htick
      | done => exact ⟨htick.scope, htick.activations, htick.pending, htick.exitStatus⟩
      | record | failed | defect => exact htick

end Ordered

end Machine

/-! ## Sessions -/

namespace Session

variable {σ : Type} {env : Setting σ} {s : Session σ}

theorem hand_ordered (h : s.machine.Ordered) : s.hand.machine.Ordered := by
  unfold hand
  dsimp only
  split
  · exact ⟨h.scope, h.activations, h.pending, h.exitStatus⟩
  · exact h

theorem wait_ordered (h : s.machine.Ordered) (ms : Nat) : (s.wait ms).machine.Ordered := by
  unfold wait
  split
  · exact h
  dsimp only
  split
  · split
    · exact ⟨h.scope, h.activations, h.pending, h.exitStatus⟩
    · exact h
  · exact h

theorem yield_ordered (h : s.machine.Ordered) : s.yield.machine.Ordered := by
  unfold yield
  split
  · exact ⟨h.scope, h.activations, h.pending, h.exitStatus⟩
  · exact h

theorem pass_ordered (h : s.machine.Ordered) : s.pass.machine.Ordered := by
  have htaken : s.machine.takeDelay.2.Ordered :=
    ⟨h.scope, h.activations, h.pending, h.exitStatus⟩
  unfold pass
  dsimp only
  split
  · exact wait_ordered htaken _
  · exact yield_ordered htaken

/-- A session runs its machine one step, hands out the record, passes the time that was asked for
and looks where the machine stands. -/
theorem advance_ordered (host : env.host.Ordered) (h : s.machine.Ordered) (fuel : Nat) :
    (s.advance env fuel).2.2.machine.Ordered := by
  have hstep := h.step host fuel
  have hadvanced := advance_cases env fuel s
  rcases hadvance : s.advance env fuel with ⟨r, outcome, s'⟩
  rw [hadvance] at hadvanced
  cases hadvanced with
  | ended steps | failed steps | defect steps | outOfFuel steps =>
    rw [steps] at hstep
    exact hstep
  | record steps looked =>
    rw [steps] at hstep
    rw [looked.machine.1]
    exact (pass_ordered (hand_ordered hstep)).advance host _ fuel

end Session

/-! ## What comes in

A run that the command line starts gets its inputs as JSON or as text, and the answers of its
services from a TOML file. Neither brings in a struct that is out of order, so nothing has to be
asked of the files or of the arguments. -/

namespace Toml

mutual

/-- A table becomes an object whose members are put in order, and a date one with a single
member. -/
theorem toJson_ordered : ∀ t : Toml, t.toJson.Ordered
  | .str s => .str s
  | .int n => .int n
  | .float x => by
    rw [toJson]
    split
    · exact .float x
    · exact .null
  | .bool b => .bool b
  | .datetime text => by
    refine .object (Assoc.sorted_cons.mpr ⟨nofun, Assoc.sorted_nil⟩) ?_
    exact List.forall_mem_cons.mpr ⟨.str text, List.forall_mem_nil _⟩
  | .array items => .array (listToJson_ordered items)
  | .table entries => Json.ordered_ofMembers (membersToJson_ordered entries)

theorem listToJson_ordered : ∀ ts : List Toml, ∀ j ∈ listToJson ts, j.Ordered
  | [] => List.forall_mem_nil _
  | t :: rest => List.forall_mem_cons.mpr ⟨toJson_ordered t, listToJson_ordered rest⟩

theorem membersToJson_ordered : ∀ entries : List (String × Toml),
    ∀ member ∈ membersToJson entries, member.2.Ordered
  | [] => List.forall_mem_nil _
  | (_, t) :: rest => List.forall_mem_cons.mpr ⟨toJson_ordered t, membersToJson_ordered rest⟩

end

end Toml

theorem Host.null_ordered {σ : Type} (clock : String) :
    (Host.null clock : Host σ).Ordered := nofun

/-- A canned answer that is a value is in order. -/
def Canned.Ordered : Canned → Prop
  | .response v => v.Ordered
  | .failure _ => True

namespace CannedTable

theorem answerOf_ordered {response failure : Option Toml} {c : Canned}
    (h : answerOf response failure = some c) : c.Ordered := by
  unfold answerOf at h
  split at h
  · cases h
    trivial
  · cases h
  · cases h
    exact Value.ofJson_ordered (Toml.toJson_ordered _)
  · cases h
    exact .null

theorem ofItem?_ordered {t : Toml} {c : Canned} (h : ofItem? t = some c) : c.Ordered := by
  unfold ofItem? at h
  split at h
  · exact answerOf_ordered h
  · exact answerOf_ordered h
  · exact answerOf_ordered h
  · cases h

theorem ofToml?_ordered {document : Toml} {table : CannedTable}
    (h : ofToml? document = some table) :
    ∀ entry ∈ table, entry.2.Ordered := by
  unfold ofToml? at h
  split at h
  · cases h
    exact List.forall_mem_nil _
  · simp only [Option.pure_def, Option.bind_eq_bind, Option.bind_eq_some_iff] at h
    obtain ⟨canned, hcanned, heq⟩ := h
    cases heq
    refine Assoc.forall_ofList (Value.forall_of_mapM (P := fun c => c.2.Ordered) ?_ hcanned)
    intro entry c hc
    obtain ⟨c, hitem, rfl⟩ := Option.map_eq_some_iff.mp hc
    exact ofItem?_ordered hitem
  · cases h

theorem ofText?_ordered {text : String} {table : CannedTable} (h : ofText? text = some table) :
    ∀ entry ∈ table, entry.2.Ordered := by
  obtain ⟨document, -, h⟩ := Option.bind_eq_some_iff.mp h
  exact ofToml?_ordered h

theorem host_ordered {table : CannedTable} (h : ∀ entry ∈ table, entry.2.Ordered)
    (clock : String) :
    (table.host clock).Ordered := by
  intro request log v hv
  replace hv : table.answer request = .ok v := hv
  unfold answer at hv
  split at hv
  · rename_i value hfound
    cases hv
    obtain hfound | ⟨-, hfound⟩ := Option.or_eq_some_iff.mp hfound
    · exact Assoc.of_get? (P := Canned.Ordered) h hfound
    · exact Assoc.of_get? (P := Canned.Ordered) h hfound
  · cases hv
  · cases hv

end CannedTable

namespace Cli

variable {files : String → Except FileError String}

theorem loadHost_ordered {clock : String} {path : Option String} {host : Host HostLog}
    (h : (loadHost clock path).run files = .ok host) : host.Ordered := by
  cases path with
  | none =>
    cases h
    exact Host.null_ordered clock
  | some path =>
    simp only [loadHost, bind, Reading.run_bind] at h
    split at h
    · cases h
    split at h
    · rename_i table htable
      cases h
      exact CannedTable.host_ordered (CannedTable.ofText?_ordered htable) clock
    · cases h

theorem parseInput_ordered {raw : String} {input : String × Value}
    (h : parseInput raw = .ok input) :
    input.2.Ordered := by
  unfold parseInput at h
  dsimp only at h
  split at h
  · cases h
  split at h
  · cases h
  split at h
  · rename_i j hparse
    cases h
    exact Value.ofJson_ordered (Json.parse_ordered hparse)
  · cases h
    exact .str _

theorem inputs_ordered {raws : List String} {inputs : List (String × Value)}
    (h : raws.mapM parseInput = .ok inputs) : ∀ input ∈ inputs, input.2.Ordered := by
  induction raws generalizing inputs with
  | nil =>
    cases h
    exact List.forall_mem_nil _
  | cons raw rest ih =>
    rw [List.mapM_cons] at h
    rcases hraw : parseInput raw with e | input
    · rw [hraw] at h
      cases h
    rcases hrest : rest.mapM parseInput with e | inputs'
    · rw [hraw, hrest] at h
      cases h
    rw [hraw, hrest] at h
    cases h
    exact List.forall_mem_cons.mpr ⟨parseInput_ordered hraw, ih hrest⟩

/-- What a job holds and what its services answer is in order. -/
structure Job.Ordered (job : Job) : Prop where
  host : job.env.host.Ordered
  machine : job.session.machine.Ordered

namespace Job.Ordered

variable {job job' : Job}

theorem atTime (h : job.Ordered) (clock : String) : (job.atTime clock).Ordered :=
  ⟨h.host, h.machine⟩

/-- A command goes on with the job as the session left it, or with its machine resumed. -/
theorem step (h : job.Ordered) (more : job.step.2 = .more job') : job'.Ordered := by
  have hsession := Session.advance_ordered h.host h.machine patience
  rcases hadvance : job.session.advance job.env patience with ⟨record, outcome, session⟩
  rw [hadvance] at hsession
  simp only [Job.step, hadvance] at more
  cases outcome with
  | none =>
    cases more
    exact ⟨h.host, hsession⟩
  | some outcome =>
    cases outcome with
    | paused | suspended =>
      cases more
      exact ⟨h.host, hsession.scope, hsession.activations, hsession.pending,
        hsession.exitStatus⟩
    | outOfFuel =>
      cases more
      exact ⟨h.host, hsession⟩
    | completed | failed | cancelled | defect => cases more

/-- A variable is read back from its tagged form if its numbers are finite: that its structs are in
order need not be asked. -/
theorem reads_back (h : job.Ordered) {name : String} {v : Value}
    (hv : job.session.machine.scope.get? name = some v)
    (finite : ∀ x, .num x ∈ v.parts → x.isFinite = true) :
    Value.ofTagged? v.toTagged = some v :=
  Value.ofTagged?_toTagged v ((h.machine.scope.get? v hv).storable finite)

end Job.Ordered

/-- **A run from the command line starts in order**, with a host whose answers are, whatever is in
the files. -/
theorem launchRun_ordered {around : Surroundings} {config : Option String}
    {args : RunArgs} {job : Job} (h : ((launchRun around config args).run files).next = .more job) :
    job.Ordered := by
  -- files and arguments are read one after the other, and each may end the command instead
  simp only [launchRun, bind] at h
  rw [Reading.run_bind] at h
  split at h
  · cases h
  rw [Reading.run_bind] at h
  split at h
  · cases h
  rw [Reading.run_bind] at h
  split at h
  · cases h
  rename_i host hhost
  split at h
  · cases h
  rename_i inputs hinputs
  cases h
  refine ⟨loadHost_ordered hhost, ?_⟩
  have hscope : (Scope.ofInputs (Assoc.ofList inputs)).Ordered :=
    Assoc.forall_ofList (inputs_ordered hinputs)
  have hnew := Machine.Ordered.new hscope HostLog.empty
  exact ⟨hnew.scope, hnew.activations, hnew.pending, hnew.exitStatus⟩

end Cli

end Stepwise
