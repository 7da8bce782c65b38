import Stepwise.Proofs.BigStep
import Stepwise.Proofs.Leads

/-!
# What it is to realize a piece of a script

`Realizes` relates a piece of the structured meaning to a machine: with the frames of the piece on
top of its stack the machine makes micro-steps, shows the records of the piece, and comes to the
state that belongs to the outcome. Behind a normal end the frames are gone. A return and an exit are
carried out at once. A fault is still looking for a handler, and the search goes on in the frames
below.

**A fault is compared by what the search comes to** (`Failing`), and not by the frames it is in: on
its way out of nested blocks and functions the machine drops nothing until it unwinds, while the
structured meaning has already left them.

A piece is realized in some place, and the place has two parts. `Site` is the running unit without
its position, so what is around a piece and does not change while it runs. The frames below the
piece are a parameter of their own, since a statement adds its frame to them for its blocks. That
the site is the right one for a meaning is `Fits`: the meaning knows of its surroundings only how
deep the calls are and at which line the run goes on behind a return.

The last section puts pieces in a row. The modules of `Simulation` that follow do one kind of piece
each, and `Proofs/Refinement` has the theorem about programs.
-/

namespace Stepwise.BigStep

open Machine

variable {σ : Type} {env : Setting σ}

/-! ## Machines and pieces -/

/-- A running unit but for its position. No subroutine call is under way in it. -/
structure Site where
  unit : CodeUnit
  saved : List (String × Option Value)
  callers : List Activation

namespace Site

/-- The activations of a site with its position. -/
def stack (s : Site) (frames : List Frame) : List Activation :=
  ⟨s.unit, frames, [], s.saved⟩ :: s.callers

/-- The site of a unit that knows this of what is around it. Behind a return the run goes on in the
caller, and the main program has none. -/
structure Fits (env : Setting σ) (s : Site) (around : Around) : Prop where
  depth : s.callers.length + 1 = around.depth
  back : ∀ m : Machine σ, m.activations = s.callers → m.nextLine? env = some around.back
  main : s.unit = .main → s.callers = []

end Site

/-- The machine at a position of a run that goes on. -/
def Progress.machine (p : Progress σ) (acts : List Activation) : Machine σ where
  store := p.store
  activations := acts
  pending := none
  finished := false
  exitStatus := none
  delay := p.delay
  suspended := p.suspended
  cancelled := false

/-- The machine with a fault that looks for a handler. -/
def Progress.raised (p : Progress σ) (acts : List Activation) (f : Failure) : Machine σ :=
  { p.machine acts with pending := some f }

/-- The search for a handler comes to what it comes to from `outer` on. A terminal fault does not
search, and puts nothing back. -/
def Failing (f : Failure) (p : Progress σ) (outer : List Activation) (m : Machine σ) : Prop :=
  ∃ scope acts, m = (p.withScope scope).raised acts f ∧
    (f.fault.isTerminal = true → scope = p.store.scope) ∧
    (f.fault.isTerminal = false → findCaught scope acts = findCaught p.store.scope outer)

/-- The machine leads on, and shows what the run has shown since. -/
def Shows (env : Setting σ) (p p' : Progress σ) (m m' : Machine σ) : Prop :=
  ∃ rs, p'.records = p.records ++ rs ∧ Leads env m rs m'

namespace Shows

theorem refl (p : Progress σ) (m : Machine σ) : Shows env p p m m :=
  ⟨[], (List.append_nil _).symm, .refl m⟩

theorem trans {p p₁ p₂ : Progress σ} {m m₁ m₂ : Machine σ} (h : Shows env p p₁ m m₁)
    (h' : Shows env p₁ p₂ m₁ m₂) : Shows env p p₂ m m₂ := by
  obtain ⟨rs, hrs, hl⟩ := h
  obtain ⟨rs', hrs', hl'⟩ := h'
  exact ⟨rs ++ rs', by rw [hrs', hrs, List.append_assoc], hl.trans hl'⟩

theorem congr {p p₁ p₂ : Progress σ} {m m' : Machine σ} (h : Shows env p p₁ m m')
    (hp : p₂.records = p₁.records) : Shows env p p₂ m m' := by
  obtain ⟨rs, hrs, hl⟩ := h
  exact ⟨rs, by rw [hp, hrs], hl⟩

theorem tick {p p' : Progress σ} {acts : List Activation} {m : Machine σ}
    (hp : p'.records = p.records) (h : (p.machine acts).tick env = (.running, m)) :
    Shows env p p' (p.machine acts) m :=
  ⟨[], by rw [hp, List.append_nil], .tick_running rfl h⟩

end Shows

/-- The machine is where a piece that ended leaves it, with the frames `below` left. Only a fault is
compared up to the frames that it is in. -/
def Arrives (s : Site) (below : List Frame) : Outcome → Progress σ → Machine σ → Prop
  | .normal, p, m => m = p.machine (s.stack below)
  | .ret v, p, m => m = ((p.machine (s.stack below)).ret v).settled
  | .exit status, p, m => m = ((p.machine (s.stack below)).terminate status).settled
  | .fault f, p, m => Failing f p (s.stack below) m

/-- With `frames` on its stack, the machine does what the meaning says and has `below` left. Nothing
is said where the meaning has no outcome: the run may go on for ever there, or jump. -/
def Realizes (env : Setting σ) (s : Site) (frames below : List Frame)
    (piece : Meaning σ) : Prop :=
  ∀ p o p', piece p = some (o, p') →
    ∃ m, Shows env p p' (p.machine (s.stack frames)) m ∧ Arrives s below o p' m

/-! ## Faults on their way out -/

theorem findCaught_cons {s : Site} {f : Frame} {below : List Frame} (hf : f.handler? = none)
    (scope : Scope) :
    findCaught scope (s.stack (f :: below)) = findCaught scope (s.stack below) := by
  simp only [Site.stack, findCaught, Frame.findInStacks, Frame.findHandler, hf]

theorem findCaught_function (name : String) (saved : List (String × Option Value))
    (acts : List Activation) (scope : Scope) :
    findCaught scope (⟨.function name, [], [], saved⟩ :: acts) =
      findCaught (scope.restoreAll saved) acts := by
  simp only [findCaught, Frame.findInStacks, Frame.findHandler]

/-- Where a unit stands does not matter to a return. -/
theorem ret_stack {p : Progress σ} {s : Site} (frames frames' : List Frame) (v : Option Value) :
    (p.machine (s.stack frames)).ret v = (p.machine (s.stack frames')).ret v := by
  obtain ⟨u, saved, callers⟩ := s
  cases u <;> rfl

/-- A frame that does not take the fault makes no difference to a piece that does not end normally.
A retry that has spent its attempts is such a frame, so it depends on the fault and the frame at
once. -/
theorem arrives_cons {s : Site} {f : Frame} {below : List Frame} {o : Outcome} (ho : o ≠ .normal)
    (hf : ∀ failure, o = .fault failure → failure.fault.isTerminal = false →
      f.handler? = none)
    {p : Progress σ} {m : Machine σ} : Arrives s (f :: below) o p m ↔
      Arrives s below o p m := by
  cases o with
  | normal => exact absurd rfl ho
  | ret v => simp only [Arrives, ret_stack (f :: below) below]
  | exit status => exact Iff.rfl
  | fault failure =>
    cases ht : failure.fault.isTerminal with
    | true => simp only [Arrives, Failing, ht, Bool.true_eq_false, false_implies, and_true]
    | false => simp only [Arrives, Failing, findCaught_cons (hf failure rfl ht)]

theorem failing_raise {s : Site} {f : Frame} (hf : f.handler? = none) (below : List Frame)
    (p : Progress σ) (line : Line) (cause : Fault) :
    Failing ⟨line, cause⟩ (p.noted ⟨line, cause⟩) (s.stack below)
      ((p.machine (s.stack (f :: below))).raise line cause) := by
  refine ⟨p.store.scope.noteFailure ⟨line, cause⟩,
    s.stack ({ f with replay := [] } :: below), rfl, fun _ => rfl, fun _ => ?_⟩
  exact findCaught_cons (show ({ f with replay := [] } : Frame).handler? = none from hf) _

/-- A handler that the search finds takes the fault in the next micro-step. It starts from the
frames of the structured meaning, although the machine may be many frames deeper. -/
theorem Failing.tick_caught {f : Failure} {p : Progress σ} {outer : List Activation}
    {m m' : Machine σ} {c : Caught} (h : Failing f p outer m) (hf : f.fault.isTerminal = false)
    (hc : findCaught p.store.scope outer = .ok c)
    (hm : (p.machine outer).handle env f c = some m') : m.tick env = (.running, m') := by
  obtain ⟨scope, acts, rfl, -, hsearch⟩ := h
  have hfound : findCaught scope acts = .ok c := (hsearch hf).trans hc
  have hhandle : ((p.withScope scope).raised acts f).handle env f c = some m' := hm
  show Machine.unwind env ((p.withScope scope).raised acts f) f = (.running, m')
  unfold Machine.unwind
  rw [if_neg (by simp [hf])]
  have : ((p.withScope scope).raised acts f).scope = scope := rfl
  rw [this, show ((p.withScope scope).raised acts f).activations = acts from rfl, hfound]
  simp only [hhandle]

/-! ## Pieces in a row -/

namespace Realizes

theorem done {s : Site} {below : List Frame} : Realizes env s below below Meaning.done := by
  intro p o p' h
  cases h
  exact ⟨_, .refl p _, rfl⟩

theorem of_tick {s : Site} {frames frames' below : List Frame} {piece : Meaning σ}
    (ticks : ∀ p : Progress σ,
      (p.machine (s.stack frames)).tick env = (.running, p.machine (s.stack frames')))
    (h : Realizes env s frames' below piece) : Realizes env s frames below piece := by
  intro p o p' hp
  obtain ⟨m, hshows, harrives⟩ := h p o p' hp
  exact ⟨m, (Shows.tick rfl (ticks p)).trans hshows, harrives⟩

/-- A frame left behind, which takes no fault, comes before the second piece. If the first piece
does not end normally, the second is not reached, and the frame makes no difference. -/
theorem andThen {s : Site} {frames below : List Frame} {f : Frame} {first second : Meaning σ}
    (hf : f.handler? = none) (h : Realizes env s frames (f :: below) first)
    (h' : Realizes env s (f :: below) below second) :
    Realizes env s frames below (first.andThen second) := by
  intro p o p' hp
  unfold Meaning.andThen at hp
  split at hp
  · rename_i p₁ hfirst
    obtain ⟨m₁, hshows, rfl⟩ := h p .normal p₁ hfirst
    obtain ⟨m₂, hshows', harrives⟩ := h' p₁ o p' hp
    exact ⟨m₂, hshows.trans hshows', harrives⟩
  · rename_i hnormal
    obtain ⟨m, hshows, harrives⟩ := h p o p' hp
    have ho : o ≠ .normal := fun ho => hnormal p' (ho ▸ hp)
    exact ⟨m, hshows, (arrives_cons ho fun _ _ _ => hf).mp harrives⟩

/-- A frame left behind that goes away by itself: the piece in front of it is the whole meaning. -/
theorem drop {s : Site} {frames below : List Frame} {f : Frame} {piece : Meaning σ}
    (hf : f.handler? = none) (h : Realizes env s frames (f :: below) piece)
    (ticks : ∀ p : Progress σ,
      (p.machine (s.stack (f :: below))).tick env = (.running, p.machine (s.stack below))) :
    Realizes env s frames below piece := by
  have hrow := h.andThen hf (of_tick ticks done)
  intro p o p' hp
  refine hrow p o p' ?_
  unfold Meaning.andThen Meaning.done
  rw [hp]
  cases o <;> rfl

end Realizes

end Stepwise.BigStep
