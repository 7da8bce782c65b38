import Mathlib.Logic.Relation
import Stepwise.Proofs.Ticked

/-!
# What a micro-step does to the scope

A scope is written by statements, by the parameters of functions, by the handlers of faults, and by
what functions put back when they are left. `ScopeMove` lists what all of these are made of,
together with the bindings that the running functions have put aside; `Touches.tick` says that a
micro-step does nothing else, by the cases that `Proofs/Ticked` has for a micro-step. What is to be
known of the scopes of a run is proved rule by rule from this list.

It is for scopes what `Moves` is for stacks, with one difference: a micro-step is any number of
scope moves, since a statement may write several variables and a fault may leave several functions.
An invariant is therefore proved of one move and holds along all of them by induction.

The bindings put aside are part of the state, innermost unit first. Without them nothing could be
said about leaving a function, which writes what was put aside when it was entered.
`Proofs/Constants` proves from the list that a constant keeps its value, and `Proofs/Breakpoints`
uses that nothing in a micro-step touches the flag for a cancellation, which `Touches` has along
with the moves.
-/

namespace Stepwise

open Relation

/-! ## The list -/

/-- The bindings that the running units have put aside, the innermost unit first. -/
abbrev Shadows := List (List (String × Option Value))

/-- What happens to a scope, and to the bindings that are put aside. Writes carry that the name is
no constant. Putting back does not: a function may put back a name that has become constant
since. -/
inductive ScopeMove : Scope × Shadows → Scope × Shadows → Prop where
  | bind {s : Scope} {name : String} (free : s.isConst name = false) (v : Value) (aside : Shadows) :
      ScopeMove (s, aside) (s.force name v, aside)
  | note (s : Scope) (f : Failure) (aside : Shadows) : ScopeMove (s, aside) (s.noteFailure f, aside)
  | freeze {s : Scope} {name : String} (bound : s.contains name = true)
      (free : s.isConst name = false) (aside : Shadows) :
      ScopeMove (s, aside) ({ s with constants := s.constants ++ [name] }, aside)
  | declareWeb (s : Scope) (name : String) (signature : WebSignature) (aside : Shadows) :
      ScopeMove (s, aside) (s.declareWeb name signature, aside)
  /-- The owner of a machine drops a binding; no statement does. -/
  | unbind {s : Scope} {name : String} (free : s.isConst name = false) (aside : Shadows) :
      ScopeMove (s, aside) ({ s with vars := Assoc.erase name s.vars }, aside)
  /-- A function is entered: its parameters are bound, and what they shadow is put aside. -/
  | enter {s s' : Scope} {params : List (String × Value)} {saved : List (String × Option Value)}
      (bound : Machine.bindParams s [] params = (.ok saved, s')) (aside : Shadows) :
      ScopeMove (s, aside) (s', saved :: aside)
  /-- A parameter cannot be bound, and those bound before it are put back. -/
  | refuse {s s' : Scope} {params : List (String × Value)} {f : Fault}
      (refused : Machine.bindParams s [] params = (.error f, s')) (aside : Shadows) :
      ScopeMove (s, aside) (s', aside)
  /-- A function is left. -/
  | leave (s : Scope) (saved : List (String × Option Value)) (aside : Shadows) :
      ScopeMove (s, saved :: aside) (s.restoreAll saved, aside)
  /-- The run is over, and nothing is put back any more. -/
  | ended (s : Scope) (aside : Shadows) : ScopeMove (s, aside) (s, [])

/-! ## Statements -/

namespace Scope

/-- Writes alone, with no function entered or left. They are for all bindings put aside, as a
statement does not see these. -/
def Written (s s' : Scope) : Prop := ∀ aside, ReflTransGen ScopeMove (s, aside) (s', aside)

namespace Written

variable {s s₁ s' : Scope}

theorem refl (s : Scope) : Written s s := fun _ => .refl

theorem trans (h : Written s s₁) (h' : Written s₁ s') : Written s s' :=
  fun aside => (h aside).trans (h' aside)

theorem force {name : String} (free : s.isConst name = false) (v : Value) :
    Written s (s.force name v) :=
  fun aside => .single (.bind free v aside)

theorem noteFailure (s : Scope) (f : Failure) : Written s (s.noteFailure f) :=
  fun aside => .single (.note s f aside)

theorem declareWeb (s : Scope) (name : String) (signature : WebSignature) :
    Written s (s.declareWeb name signature) :=
  fun aside => .single (.declareWeb s name signature aside)

theorem set {name : String} {v : Value} (h : s.set name v = .ok s') : Written s s' := by
  unfold Scope.set at h
  split at h
  · cases h
  · rename_i hfree
    cases h
    exact force (Bool.not_eq_true _ ▸ hfree) v

theorem declareConst {name : String} (h : s.declareConst name = .ok s') : Written s s' := by
  unfold Scope.declareConst at h
  split at h
  · rename_i hbound
    cases h
    by_cases hconst : s.isConst name = true
    · rw [if_pos hconst]
      exact refl s
    · rw [if_neg hconst]
      exact fun aside => .single (.freeze hbound (Bool.not_eq_true _ ▸ hconst) aside)
  · cases h

end Written

end Scope

theorem Scope.free_of_updatable {s : Scope} {name : String} {v : Value}
    (h : s.updatable name = .ok v) : s.isConst name = false := by
  unfold updatable at h
  split at h
  · cases h
  · rename_i hfree
    exact Bool.not_eq_true _ ▸ hfree

/-- Writing to a target is one write or two: a missing root is made first. A write that fails
further down is among these, too, since it may leave containers. -/
theorem Target.write_written (s : Scope) (t : Target) (v : Value) :
    Scope.Written s (t.write s v).2 := by
  unfold Target.write
  cases t with
  | var name =>
    dsimp only
    rcases hset : s.set name v with f | s'
    · exact .refl s
    · exact .set hset
  | path root keys =>
    dsimp only
    split
    · exact .refl s
    rename_i s₁ hcreated
    have hfirst : Scope.Written s s₁ := by
      split at hcreated
      · cases hcreated
        exact .refl s
      · exact .set hcreated
    rcases hslot : s₁.updatable root with f | slot
    · exact hfirst
    · exact hfirst.trans (.force (Scope.free_of_updatable hslot) _)

theorem Target.bind_written (s : Scope) (bindings : List (Target × Value)) :
    Scope.Written s (Target.bind s bindings).2 := by
  induction bindings generalizing s with
  | nil => exact .refl s
  | cons binding rest ih =>
    obtain ⟨t, v⟩ := binding
    have hfirst := t.write_written s v
    unfold Target.bind
    rcases hwrite : t.write s v with ⟨f | ⟨⟩, s₁⟩
    · rw [hwrite] at hfirst
      exact hfirst
    · rw [hwrite] at hfirst
      exact hfirst.trans (ih s₁)

namespace Store

/-- Constants are written and then frozen, one after the other. Where one of them is refused, those
before it stay. -/
theorem freeze_written (s : Scope) (pairs : List (String × Value)) :
    Scope.Written s (freeze s pairs).2 := by
  induction pairs generalizing s with
  | nil => exact .refl s
  | cons pair rest ih =>
    obtain ⟨name, v⟩ := pair
    unfold freeze
    rcases hset : s.set name v with f | s₁
    · exact .refl s
    dsimp only
    rcases hconst : s₁.declareConst name with f | s₂
    · exact .set hset
    · exact (Scope.Written.set hset).trans ((Scope.Written.declareConst hconst).trans (ih s₂))

theorem input_written (s : Scope) (name : String) : Scope.Written s (input s name).2 := by
  unfold input
  dsimp only
  split
  · exact .refl s
  · rename_i s₁ hopened
    split at hopened
    · cases hopened
      exact .refl s
    · exact .set hopened

end Store

section

variable {σ α β : Type} {env : Setting σ}

/-- A statement is an evaluation, which writes nothing, and a part that writes. -/
theorem Evaluated.commit_written (e : Evaluated σ α)
    {k : α → Store σ → Except Fault β × Store σ}
    (h : ∀ a store, Scope.Written store.scope (k a store).2.scope) :
    Scope.Written e.store.scope (e.commit k).store.scope := by
  unfold commit
  rcases hresult : e.result with i | a
  · exact .refl _
  · have hk := h a e.store
    dsimp only
    rcases hcommit : k a e.store with ⟨f | b, store⟩
    · rw [hcommit] at hk
      exact hk
    · rw [hcommit] at hk
      exact hk

/-- A statement writes to the scope by moves that neither enter nor leave a function. Whether it
fails on the way does not matter, since what it wrote up to there stays. -/
theorem Stmt.execute_written {stmt : Stmt} {store : Store σ} {replay : List Value}
    {r : Evaluated σ Effect} (h : stmt.execute env store replay = some r) :
    Scope.Written store.scope r.store.scope := by
  cases stmt with
  | compound => cases h
  | condition => cases h
  | cycle => cases h
  | doCycle => cases h
  | retry => cases h
  | tryCatch => cases h
  | included => cases h
  | comment => cases h
  | doc => cases h
  | label => cases h; exact .refl _
  | noop => cases h; exact .refl _
  | function => cases h; exact .refl _
  | goto => cases h; exact .refl _
  | gosub => cases h; exact .refl _
  | suspend => cases h; exact .refl _
  -- the writes are in the commits: bindings, constants, services and inputs
  | assign =>
    cases h
    exact Evaluated.commit_written (Store.eval ..) fun _ _ => Target.bind_written _ _
  | const =>
    cases h
    exact Evaluated.commit_written (Store.eval ..) fun _ _ => Store.freeze_written _ _
  -- an evaluation alone writes nothing to the scope
  | ret value =>
    cases value with
    | none => cases h; exact .refl _
    | some e =>
      cases h
      exact Evaluated.commit_written (Store.eval ..) fun _ _ => .refl _
  | exit status =>
    cases status with
    | none => cases h; exact .refl _
    | some e =>
      cases h
      exact Evaluated.commit_written (Store.eval ..) fun _ _ => .refl _
  | error =>
    cases h
    exact Evaluated.commit_written (Store.eval ..) fun _ _ => .refl _
  | throw =>
    cases h
    exact Evaluated.commit_written (Store.eval ..) fun _ _ => .refl _
  | delay =>
    cases h
    refine Evaluated.commit_written (Store.eval ..) fun v _ => ?_
    split
    · exact .refl _
    · split <;> exact .refl _
  | status =>
    cases h
    exact Evaluated.commit_written (Store.eval ..) fun _ _ => .refl _
  | declareWeb name params outputs calledAs url =>
    cases url with
    | none =>
      cases h
      exact .declareWeb _ _ _
    | some e =>
      cases h
      exact Evaluated.commit_written (Store.eval ..) fun _ _ => .declareWeb _ _ _
  | call =>
    cases h
    exact Evaluated.commit_written (Store.eval ..) fun _ _ => .refl _
  | input =>
    cases h
    exact Evaluated.commit_written (Store.pure ..) fun _ _ => Store.input_written _ _

end

/-! ## Micro-steps -/

namespace Machine

variable {σ : Type} {env : Setting σ} {m m₁ m' : Machine σ} {s s' : Scope}

/-- The bindings that the running units have put aside. -/
def shadows (m : Machine σ) : Shadows := m.activations.map Activation.saved

/-- What a micro-step may do besides moving frames. That the machine is not cancelled by itself is
noted here, too, since the same lemmas show it. -/
structure Touches (m m' : Machine σ) : Prop where
  cancelled : m'.cancelled = m.cancelled
  moves : ReflTransGen ScopeMove (m.scope, m.shadows) (m'.scope, m'.shadows)

namespace Touches

theorem of_eq (hcancelled : m'.cancelled = m.cancelled) (hscope : m'.scope = m.scope)
    (hshadows : m'.shadows = m.shadows) : Touches m m' := by
  refine ⟨hcancelled, ?_⟩
  rw [hscope, hshadows]

theorem refl (m : Machine σ) : Touches m m := of_eq rfl rfl rfl

theorem trans (h : Touches m m₁) (h' : Touches m₁ m') : Touches m m' :=
  ⟨h'.cancelled.trans h.cancelled, h.moves.trans h'.moves⟩

theorem ended (m : Machine σ) {m' : Machine σ} (hcancelled : m'.cancelled = m.cancelled)
    (hscope : m'.scope = m.scope) (hnone : m'.activations = []) : Touches m m' := by
  refine ⟨hcancelled, ?_⟩
  rw [hscope, shadows, shadows, hnone]
  exact .single (.ended _ _)

theorem mapTop (m : Machine σ) {f : Activation → Activation}
    (hf : ∀ act, (f act).saved = act.saved) :
    Touches m (m.mapTop f) := by
  unfold Machine.mapTop
  rcases hacts : m.activations with _ | ⟨act, rest⟩
  · exact refl m
  · refine of_eq rfl rfl ?_
    simp [shadows, hacts, hf]

theorem withFrames (m : Machine σ) (frames : List Frame) : Touches m (m.withFrames frames) :=
  mapTop m fun _ => rfl

theorem mapFrame (m : Machine σ) (f : Frame → Frame) : Touches m (m.mapFrame f) := by
  apply mapTop m
  intro act
  cases act.frames <;> rfl

theorem written {store : Store σ} (h : Scope.Written m.scope store.scope) :
    Touches m { m with store } :=
  ⟨rfl, h _⟩

theorem raise (m : Machine σ) (line : Line) (fault : Fault) : Touches m (m.raise line fault) := by
  refine (mapFrame m fun frame => { frame with replay := [] }).trans ?_
  exact ⟨rfl, Scope.Written.noteFailure _ _ _⟩

/-- A call enters a function, or is refused. A call that is refused because of a constant has bound
parameters before it and put them back, which is a move of its own. -/
theorem callFunction (env : Setting σ) (m : Machine σ) (line : Line) (name : String)
    (args : List Value) : Touches m (m.callFunction env line name args) := by
  unfold Machine.callFunction
  rcases env.program.function? name with _ | d
  · exact raise m _ _
  dsimp only
  split
  · exact raise m _ _
  split
  · exact raise m _ _
  rcases hbind : bindParams m.scope [] (d.params.zip args) with ⟨f | saved, scope⟩
  · have hput : Touches m (m.withScope scope) :=
      ⟨rfl, .single (.refuse hbind _)⟩
    exact hput.trans (raise (m.withScope scope) line f)
  · exact ⟨rfl, .single (.enter hbind _)⟩

theorem interrupt (env : Setting σ) (m : Machine σ) (line : Line) (i : Interrupt) :
    Touches m (m.interrupt env line i) := by
  cases i with
  | fault f => exact raise m line f
  | call name args => exact callFunction env m line name args

theorem returnFromFunction (m : Machine σ) (value : Value) :
    Touches m (m.returnFromFunction value) := by
  unfold Machine.returnFromFunction
  rcases hacts : m.activations with _ | ⟨act, rest⟩
  · exact refl m
  · let left : Machine σ :=
      { m.withScope (m.scope.restoreAll act.saved) with activations := rest }
    have hleft : Touches m left := by
      refine ⟨rfl, ?_⟩
      rw [shadows, hacts]
      exact .single (.leave _ _ _)
    exact hleft.trans (mapFrame left _)

theorem terminate (m : Machine σ) (status : Option Value) : Touches m (m.terminate status) :=
  ended m rfl rfl rfl

theorem ret (m : Machine σ) (value : Option Value) : Touches m (m.ret value) := by
  unfold Machine.ret
  split
  · exact refl m
  split
  · exact mapTop m fun _ => rfl
  split
  · exact returnFromFunction m _
  · exact terminate m value

theorem jump {label : String} (h : m.jump env label = some (.ok m')) : Touches m m' := by
  obtain ⟨frames, rfl⟩ := jump_eq h
  exact withFrames m frames

theorem gosub {label : String} (h : m.gosub env label = some (.ok m')) : Touches m m' := by
  obtain ⟨frames, rfl⟩ := gosub_eq h
  refine Touches.trans (mapTop m ?_) (withFrames _ frames)
  exact fun _ => rfl

theorem recorded (env : Setting σ) (m : Machine σ) (line : Line) (value : Option Value) :
    Touches m (m.recorded env line value).2 := by
  unfold Machine.recorded
  split <;> exact refl m

/-- What a statement asks for touches the scope only by leaving a function. Jumps and subroutine
calls move frames, and a function starts before its caller is done. -/
theorem apply (env : Setting σ) (m : Machine σ) (line : Line) (effect : Effect) :
    Touches m (m.apply env line effect).2 := by
  cases effect with
  | value v => exact recorded env m line v
  | jump label =>
    rcases hjump : m.jump env label with _ | f | m₁ <;> simp only [Machine.apply, hjump]
    · exact refl m
    · exact raise m line f
    · exact (jump hjump).trans (recorded env m₁ line none)
  | sub label =>
    rcases hgosub : m.gosub env label with _ | f | m₁ <;> simp only [Machine.apply, hgosub]
    · exact refl m
    · exact raise m line f
    · exact (gosub hgosub).trans (recorded env m₁ line none)
  | ret v => exact (ret m v).trans (recorded env _ line v)
  | exit status => exact (terminate m status).trans (recorded env _ line status)
  | delay ns v =>
    refine Touches.trans ?_ (recorded env { m with delay := some ns } line (some v))
    exact of_eq rfl rfl rfl
  | suspend =>
    refine Touches.trans ?_ (recorded env { m with suspended := true } line none)
    exact of_eq rfl rfl rfl

end Touches

/-- On the way to a handler functions are left, and no other unit is. Each of them puts its bindings
back before the next one is looked at. -/
theorem findCaught_moves {acts : List Activation} {c : Caught} (h : findCaught s acts = .ok c) :
    ReflTransGen ScopeMove (s, acts.map Activation.saved)
      (c.scope, (c.activation :: c.callers).map Activation.saved) := by
  induction acts generalizing s with
  | nil => cases h
  | cons act callers ih =>
    unfold findCaught at h
    split at h
    · cases h
      exact .refl
    split at h
    · cases h
    · exact .head (.leave _ _ _) (ih h)

theorem findCaught_error_moves {acts : List Activation} (h : findCaught s acts = .error s') :
    ReflTransGen ScopeMove (s, acts.map Activation.saved) (s', []) := by
  induction acts generalizing s with
  | nil =>
    cases h
    exact .refl
  | cons act callers ih =>
    unfold findCaught at h
    split at h
    · cases h
    split at h
    · cases h
      exact .single (.ended _ _)
    · exact .head (.leave _ _ _) (ih h)

namespace Touches

/-- A handler binds its variable in the scope that the functions on the way have put back to. If
that variable is a constant, this is noted as another failure. -/
theorem handle {failure : Failure} {c : Caught} (found : findCaught m.scope m.activations = .ok c)
    (h : m.handle env failure c = some m') : Touches m m' := by
  let left : Machine σ :=
    { m.withScope c.scope with activations := c.activation :: c.callers, pending := none }
  have hleft : Touches m left := ⟨rfl, findCaught_moves found⟩
  unfold Machine.handle at h
  split at h
  · cases h
    exact hleft.trans (withFrames left _)
  split at h
  · split at h
    · cases h
      exact hleft.trans (withFrames left _)
    dsimp only at h
    split at h
    · rename_i scope hset
      cases h
      exact hleft.trans ((withFrames left _).trans ⟨rfl, Scope.Written.set hset _⟩)
    · cases h
      exact hleft.trans ((withFrames left _).trans (raise _ _ _))
  · cases h

theorem unwind (env : Setting σ) (m : Machine σ) (failure : Failure) :
    Touches m (m.unwind env failure).2 := by
  unfold Machine.unwind
  split
  · exact ended m rfl rfl rfl
  rcases hfound : findCaught m.scope m.activations with s' | c
  · exact ⟨rfl, findCaught_error_moves hfound⟩
  dsimp only
  rcases hhandle : m.handle env failure c with _ | m'
  · exact refl m
  · exact handle hfound hhandle

/-- An evaluation that stopped has written what a statement writes before its fault, or nothing. -/
theorem stopped {u : CodeUnit} {kind : FrameKind} {replay replay' : List Value} {store : Store σ}
    {line : Line} {i : Interrupt} (h : Stopped env m u kind replay replay' store line i) :
    Touches m { m with store } := by
  cases h with
  | statement hstmt hexec hresult => exact written (Stmt.execute_written hexec)
  | header same reason => exact of_eq rfl same rfl

/-- **A micro-step does to the scope what the list says**, and nothing else. It holds of every
program, linked or not. -/
theorem tick (env : Setting σ) (m : Machine σ) : Touches m (m.tick env).2 := by
  have ticked := tick_ticked env m
  generalize m.tick env = r at ticked
  cases ticked with
  | astray | idle => exact refl m
  | cancelled line => exact (raise m line .cancelled).trans (ended _ rfl rfl rfl)
  | unwind => exact unwind env m _
  | ended => exact ended m rfl rfl rfl
  | back => exact returnFromFunction m _
  | @moved store going same frames =>
    have hsame : Touches m { m with store } := of_eq rfl same rfl
    exact hsame.trans (withFrames _ frames)
  | ran going front hstmt hexec =>
    exact (written (Stmt.execute_written hexec)).trans
      ((withFrames _ _).trans (apply env _ _ _))
  | stopped going front stops =>
    exact (Touches.stopped stops).trans ((withFrames _ _).trans (interrupt env _ _ _))

end Touches

end Machine

end Stepwise
