import Stepwise.Proofs.Simulation.Basic

/-!
# Evaluations and calls

An evaluation happens in one frame of the machine: every pass over it is one micro-step in that
frame (`PassFrame`), and a pass that stops for a function puts an activation on top.
`evaluate_realized` says that the machine comes to the last pass, the one that has a value, or else
that the run ends or fails on the way as the structured meaning has it. All of this is relative to
the meaning of blocks (`RunsBlocks`), since the body of a function is a block.

Headers and simple statements are evaluated in the same way, and differ in what follows the last
pass. So the theorem stops in front of it (`AtLastPass`), and the micro-step that makes the last
pass belongs to what follows: for a header it puts other frames in the place of its own
(`Realizes.header`), for a statement it carries the effect out (`Proofs/Simulation/Simple`).
-/

namespace Stepwise.BigStep

open Machine

variable {σ α : Type} {env : Setting σ}

/-! ## Passes -/

/-- The machine realizes the blocks of a program wherever they stand. It is the hypothesis of all
lemmas about statements, and is discharged in `Proofs/Refinement` by induction on fuel. -/
def RunsBlocks (env : Setting σ) (run : Around → Block → Meaning σ) : Prop :=
  ∀ (around : Around) (s : Site), s.Fits env around →
    ∀ (path : BlockPath) (b : Block) (below : List Frame),
      env.program.block? s.unit path = some b →
      Realizes env s (Frame.block path 0 :: below) below (run around b)

/-- The frame in which an evaluation happens, for a statement on the line `back`. A function called
from it returns to that line, and the frame takes no fault. -/
structure PassFrame (env : Setting σ) (s : Site) (kind : FrameKind) (below : List Frame)
    (back : Line) (pass : Pass σ α) : Prop where
  /-- A pass that stops is one micro-step. -/
  stops : ∀ (p : Progress σ) (replay : List Value) (line : Line) (i : Interrupt)
    (replay' : List Value) (store : Store σ),
    pass replay p.store = some (line, .error i, replay', store) →
      (p.machine (s.stack (⟨kind, replay⟩ :: below))).tick env =
        (.running, ((p.withStore store).machine
          (s.stack (⟨kind, replay'⟩ :: below))).interrupt env line i)
  line : ∀ (m : Machine σ) (replay : List Value),
    m.activations = s.stack (⟨kind, replay⟩ :: below) → m.nextLine? env = some back
  handler : ∀ replay, Frame.handler? ⟨kind, replay⟩ = none

/-- The machine is where an evaluation that has no value leaves it; `P` says where it is
otherwise. -/
def Concludes (s : Site) (below : List Frame) (P : α → Progress σ → Machine σ → Prop) :
    Ended α → Progress σ → Machine σ → Prop
  | .value a, p, m => P a p m
  | .exit status, p, m => Arrives s below (.exit status) p m
  | .fault f, p, m => Arrives s below (.fault f) p m

/-- Some pass stops for a function. -/
def Pass.CanCall (pass : Pass σ α) : Prop :=
  ∃ replay store line name args replay' store',
    pass replay store = some (line, .error (.call name args), replay', store')

/-- The machine is in front of the last pass, which has the value `a`. It was the first one, unless
passes stop for functions: a statement that calls none has an empty list throughout. -/
def AtLastPass (s : Site) (kind : FrameKind) (below : List Frame) (pass : Pass σ α)
    (replay : List Value) (a : α) (p : Progress σ) (m : Machine σ) : Prop :=
  ∃ q last line replay', m = Progress.machine q (s.stack (⟨kind, last⟩ :: below)) ∧
    p = q.withStore p.store ∧ pass last q.store = some (line, .ok a, replay', p.store) ∧
    (last = replay ∨ pass.CanCall)

/-- The site of a function that an evaluation at another site calls. -/
def Site.callee (s : Site) (name : String) (saved : List (String × Option Value))
    (frames : List Frame) : Site :=
  ⟨.function name, saved, s.stack frames⟩

section Call

variable {run : Around → Block → Meaning σ} {s : Site} {around : Around} {kind : FrameKind}
  {below : List Frame} {back : Line} {pass : Pass σ α}

/-! ## Calls and evaluations -/

/-- A function that is called has a site that fits: it is one call deeper, and returns to the line
of the statement. -/
theorem PassFrame.callee_fits (hframe : PassFrame env s kind below back pass)
    (hfits : s.Fits env around) (name : String) (saved : List (String × Option Value))
    (replay : List Value) :
    (s.callee name saved (⟨kind, replay⟩ :: below)).Fits env ⟨around.depth + 1, back⟩ where
  depth := by
    have := hfits.depth
    simp only [Site.callee, Site.stack, List.length_cons]
    omega
  back m hm := hframe.line m replay hm
  main h := nomatch h

/-- A fault that leaves a function goes on in the frame that called it, and past it. -/
theorem failing_callee {f : Failure} {p : Progress σ} {m : Machine σ} {name : String}
    {saved : List (String × Option Value)} {replay : List Value}
    (hhandler : ∀ replay, Frame.handler? ⟨kind, replay⟩ = none)
    (h : Failing f p ((s.callee name saved (⟨kind, replay⟩ :: below)).stack []) m) :
    Failing f (if f.fault.isTerminal then p else p.restored saved) (s.stack below) m := by
  obtain ⟨scope, acts, rfl, hterminal, hsearch⟩ := h
  cases ht : f.fault.isTerminal with
  | true =>
    refine ⟨scope, acts, rfl, fun _ => hterminal ht, fun h => ?_⟩
    rw [ht] at h
    cases h
  | false =>
    refine ⟨scope, acts, rfl, fun h => ?_, fun _ => ?_⟩
    · rw [ht] at h
      cases h
    -- the search leaves the function, and then the frame that called it
    · calc findCaught scope acts
          = findCaught p.store.scope
              ((s.callee name saved (⟨kind, replay⟩ :: below)).stack []) := hsearch ht
        _ = findCaught (p.store.scope.restoreAll saved) (s.stack (⟨kind, replay⟩ :: below)) :=
            findCaught_function name saved _ _
        _ = findCaught (p.store.scope.restoreAll saved) (s.stack below) :=
            findCaught_cons (hhandler replay) _

/-- **A call.** The machine that starts the call of a function comes back with its value in front of
the next pass, or ends, or fails. The tests for refusing it are made in the same order on both
sides. -/
theorem call_realized (hrun : RunsBlocks env run) (hfits : s.Fits env around)
    (hframe : PassFrame env s kind below back pass) (replay : List Value) {line : Line}
    {name : String} {args : List Value} {p p' : Progress σ} {e : Ended Value}
    (h : call env run around.depth back line name args p = some (e, p')) :
    ∃ m,
      Shows env p p'
        ((p.machine (s.stack (⟨kind, replay⟩ :: below))).callFunction env line name args) m ∧
      Concludes s below (fun v q m => m = q.machine (s.stack (⟨kind, replay ++ [v]⟩ :: below)))
        e p' m := by
  -- a refused call is a fault on the spot
  have refused : ∀ (q : Progress σ) (cause : Fault), q.records = p.records →
      Evaluation.fail line cause q = some (e, p') →
      ∃ m,
        Shows env p p' ((q.machine (s.stack (⟨kind, replay⟩ :: below))).raise line cause) m ∧
        Concludes s below
          (fun v q m => m = q.machine (s.stack (⟨kind, replay ++ [v]⟩ :: below))) e p' m := by
    intro q cause hq hfail
    cases hfail
    exact ⟨_, (Shows.refl _ _).congr hq,
      failing_raise (hframe.handler replay) below q line cause⟩
  have hdepth : (p.machine (s.stack (⟨kind, replay⟩ :: below))).activations.length =
      around.depth :=
    hfits.depth
  unfold call at h
  unfold callFunction
  cases hd : env.program.function? name with
  | none =>
    rw [hd] at h
    exact refused p _ rfl h
  | some d =>
    rw [hd] at h
    dsimp only at h ⊢
    rw [hdepth]
    split at h
    · rename_i hdeep
      rw [if_pos hdeep]
      exact refused p _ rfl h
    · rename_i hdeep
      rw [if_neg hdeep]
      split at h
      · rename_i hcount
        rw [if_pos hcount]
        exact refused p _ rfl h
      · rename_i hcount
        rw [if_neg hcount]
        rw [show (p.machine (s.stack (⟨kind, replay⟩ :: below))).scope = p.store.scope from rfl]
        cases hb : bindParams p.store.scope [] (d.params.zip args) with
        | mk result scope =>
          rw [hb] at h
          cases result with
          | error cause => exact refused (p.withScope scope) cause rfl h
          | ok saved =>
            -- the body runs at a site of its own
            have hblock : env.program.block? (.function name) [] = some d.body := by
              simp only [Program.block?, Program.unitRoot?, hd, Option.map_some, Block.follow?]
            have hbody := hrun _ _ (hframe.callee_fits hfits name saved replay) [] d.body [] hblock
            dsimp only at h
            split at h
            · cases h
            · rename_i q hq
              cases h
              obtain ⟨m, hshows, rfl⟩ := hbody _ _ _ hq
              exact ⟨_, hshows.trans (Shows.tick rfl rfl), rfl⟩
            · rename_i v q hq
              cases h
              obtain ⟨m, hshows, rfl⟩ := hbody _ _ _ hq
              exact ⟨_, hshows, rfl⟩
            · rename_i status q hq
              cases h
              obtain ⟨m, hshows, rfl⟩ := hbody _ _ _ hq
              exact ⟨_, hshows, rfl⟩
            · rename_i f q hq
              cases h
              obtain ⟨m, hshows, hfails⟩ := hbody _ _ _ hq
              refine ⟨m, hshows.congr ?_, failing_callee hframe.handler hfails⟩
              split <;> rfl

/-- **An evaluation.** The machine comes to a pass that has the value, or ends, or fails. The
induction is on the number of passes; a pass that stops for a function is followed by the call and
by the passes behind it. -/
theorem evaluate_realized (hrun : RunsBlocks env run) (hfits : s.Fits env around)
    (hframe : PassFrame env s kind below back pass) {n : Nat} {replay : List Value}
    {p p' : Progress σ} {e : Ended α}
    (h : evaluate (call env run around.depth back) pass n replay p = some (e, p')) :
    ∃ m, Shows env p p' (p.machine (s.stack (⟨kind, replay⟩ :: below))) m ∧
      Concludes s below (AtLastPass s kind below pass replay) e p' m := by
  induction n generalizing replay p with
  | zero => cases h
  | succ n ih =>
    unfold evaluate at h
    split at h
    · cases h
    · rename_i line a replay' store hpass
      cases h
      exact ⟨_, (Shows.refl _ _).congr rfl, p, replay, line, replay', rfl, rfl, hpass, .inl rfl⟩
    -- the pass failed: one micro-step raises the fault
    · rename_i line cause replay' store hpass
      cases h
      refine ⟨_, Shows.tick rfl (hframe.stops p _ _ _ _ _ hpass), ?_⟩
      exact failing_raise (hframe.handler replay') below (p.withStore store) line cause
    -- the pass stopped for a function: a micro-step enters it, and what the call comes to is known
    · rename_i line name args replay' store hpass
      have hstop := hframe.stops p _ _ _ _ _ hpass
      split at h
      · cases h
      · rename_i v q hcall
        obtain ⟨m, hshows, rfl⟩ := call_realized hrun hfits hframe replay' hcall
        obtain ⟨m', hshows', hends⟩ := ih h
        refine ⟨m', ((Shows.tick rfl hstop).trans hshows).trans hshows', ?_⟩
        cases e with
        | exit status => exact hends
        | fault f => exact hends
        | value a =>
          obtain ⟨q', last, line', replay'', hm, hq, hlast, -⟩ := hends
          exact ⟨q', last, line', replay'', hm, hq, hlast,
            .inr ⟨_, _, _, _, _, _, _, hpass⟩⟩
      · rename_i status q hcall
        cases h
        obtain ⟨m, hshows, hends⟩ := call_realized hrun hfits hframe replay' hcall
        exact ⟨m, (Shows.tick rfl hstop).trans hshows, hends⟩
      · rename_i f q hcall
        cases h
        obtain ⟨m, hshows, hends⟩ := call_realized hrun hfits hframe replay' hcall
        exact ⟨m, (Shows.tick rfl hstop).trans hshows, hends⟩

/-- What goes on behind an evaluation, from the last pass on. The frames that are left may be others
than those below the evaluation, as the block of a statement stays. -/
theorem Realizes.evaluated (hrun : RunsBlocks env run) (hfits : s.Fits env around)
    (hframe : PassFrame env s kind below back pass) {n : Nat} {k : α → Meaning σ}
    {left : List Frame}
    (hleft : ∀ (o : Outcome) (p : Progress σ) (m : Machine σ), o ≠ .normal →
      Arrives s below o p m → Arrives s left o p m)
    (after : ∀ (a : α) (q : Progress σ) (last : List Value) (line : Line) (replay' : List Value)
      (store : Store σ), pass last q.store = some (line, .ok a, replay', store) →
        (last = [] ∨ pass.CanCall) → ∀ o p', k a (q.withStore store) = some (o, p') →
          ∃ m, Shows env q p' (q.machine (s.stack (⟨kind, last⟩ :: below))) m ∧
            Arrives s left o p' m) :
    Realizes env s (⟨kind, []⟩ :: below) left
      (Evaluation.andThen (evaluate (call env run around.depth back) pass n []) k) := by
  intro p o p' h
  unfold Evaluation.andThen at h
  split at h
  · cases h
  -- there is a value, and the micro-step of the last pass is the first of what goes on
  · rename_i a q heval
    obtain ⟨m, hshows, q₀, last, line, replay', rfl, hq, hpass, hlast⟩ :=
      evaluate_realized hrun hfits hframe heval
    rw [hq] at h
    obtain ⟨m', hshows', harrives⟩ := after a q₀ last line replay' q.store hpass hlast o p' h
    have hrecords : q₀.records = q.records := by rw [hq]; rfl
    exact ⟨m', (hshows.congr hrecords).trans hshows', harrives⟩
  -- the run is over, so nothing goes on
  · rename_i status q heval
    cases h
    obtain ⟨m, hshows, harrives⟩ := evaluate_realized hrun hfits hframe heval
    exact ⟨m, hshows, hleft _ _ _ (fun h => nomatch h) harrives⟩
  · rename_i f q heval
    cases h
    obtain ⟨m, hshows, harrives⟩ := evaluate_realized hrun hfits hframe heval
    exact ⟨m, hshows, hleft _ _ _ (fun h => nomatch h) harrives⟩

/-- Behind the evaluation of a header the machine puts other frames in the place of its frame. -/
theorem Realizes.header (hrun : RunsBlocks env run) (hfits : s.Fits env around)
    (hframe : PassFrame env s kind below back pass) {n : Nat} {k : α → Meaning σ}
    (after : ∀ (a : α) (q : Progress σ) (last : List Value) (line : Line) (replay' : List Value)
      (store : Store σ), pass last q.store = some (line, .ok a, replay', store) →
        ∃ frames, (q.machine (s.stack (⟨kind, last⟩ :: below))).tick env =
            (.running, (q.withStore store).machine (s.stack frames)) ∧
          Realizes env s frames below (k a)) :
    Realizes env s (⟨kind, []⟩ :: below) below
      (Evaluation.andThen (evaluate (call env run around.depth back) pass n []) k) := by
  refine .evaluated hrun hfits hframe (fun _ _ _ _ h => h) ?_
  intro a q last line replay' store hpass _ o p' hk
  obtain ⟨frames, ticks, hframes⟩ := after a q last line replay' store hpass
  obtain ⟨m, hshows, harrives⟩ := hframes _ _ _ hk
  have hstep : Shows env q (q.withStore store) _ _ := Shows.tick rfl ticks
  exact ⟨m, hstep.trans hshows, harrives⟩

end Call

end Stepwise.BigStep
