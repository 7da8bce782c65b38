import Stepwise.Proofs.Constants
import Stepwise.Proofs.Placement

/-!
# What lies under the unit in front

A micro-step works on the unit in front. It may leave units, from the front on, and it may put a
function in front of all; **the units under the one it works on stay as they are** (`Moves.keeps`).
So a unit is the same unit as long as there are more units than it has callers (`Above`), whatever
runs on top of it: its place in the list of activations is all that is needed to know it again.

Activations have no names, and a unit may be active many times over, so "the same unit later in the
run" needs an explanation. Here it is the unit with the same callers: a suffix of the list that
never got shorter in between. What `Above` keeps of it is what it was called with, the unit and the
bindings it put aside. Where it stands and which subroutines it is in may change, of course.

`Proofs/Parameters` uses this to say what a function gives back when it ends, and
`Proofs/Subroutines` to say what a return goes back to. How a fault cuts the units down
(`caught_split`) is also used in `Proofs/Ending` and `Proofs/Termination`.
-/

namespace Stepwise

open Relation

/-! ## Units that are worked on -/

namespace Activation

/-- What working on a unit leaves of it. The stacks put aside get fewer, or one more comes on top; a
fault may leave several subroutines at once, so "fewer" is not one fewer. -/
structure Alters (act act' : Activation) : Prop where
  unit : act'.unit = act.unit
  saved : act'.saved = act.saved
  aside : act'.subroutines <:+ act.subroutines ∨
    ∃ stack, act'.subroutines = stack :: act.subroutines

/-- All these units are functions. -/
def AllFunctions (acts : List Activation) : Prop :=
  ∀ act ∈ acts, ∃ name, act.unit = .function name

theorem Alters.refl (act : Activation) : act.Alters act := ⟨rfl, rfl, .inl List.suffix_rfl⟩

theorem mapFrame_cons (f : Frame → Frame) (act : Activation) (callers : List Activation) :
    ∃ act', mapFrame f (act :: callers) = act' :: callers ∧ act.Alters act' := by
  obtain ⟨u, frames, subroutines, saved⟩ := act
  cases frames with
  | nil => exact ⟨_, rfl, .refl _⟩
  | cons frame below => exact ⟨_, rfl, rfl, rfl, .inl List.suffix_rfl⟩

theorem mapFrame_mapFrame (f g : Frame → Frame) (acts : List Activation) :
    mapFrame f (mapFrame g acts) = mapFrame (fun frame => f (g frame)) acts := by
  unfold mapFrame
  rcases acts with _ | ⟨⟨u, _ | ⟨frame, below⟩, subroutines, saved⟩, callers⟩ <;> rfl

theorem length_mapFrame (f : Frame → Frame) (acts : List Activation) :
    (mapFrame f acts).length = acts.length := by
  unfold mapFrame
  split <;> rfl

end Activation

open Activation

namespace Machine

variable {σ : Type} {env : Setting σ} {m m' : Machine σ}
  {acts acts' inner callers : List Activation} {act : Activation}

/-! ## One micro-step -/

/-- The unit that a handler starts in has fewer stacks put aside, or as many. All units in front of
it are left. -/
theorem caught_split {scope : Scope} {c : Caught} (found : findCaught scope acts = .ok c) :
    ∃ inner act, acts = inner ++ act :: c.callers ∧ c.activation.unit = act.unit ∧
      c.activation.saved = act.saved ∧ c.activation.subroutines <:+ act.subroutines := by
  obtain ⟨inner, act, newer, above, f, hacts, hstacks, -, hunit, hsaved⟩ := findCaught_ok found
  refine ⟨inner, act, hacts, hunit, hsaved, ?_⟩
  cases newer with
  -- the handler is in the stack in front, so all that was put aside stays
  | nil =>
    obtain ⟨-, haside⟩ := List.cons.inj hstacks
    exact haside ▸ List.suffix_rfl
  -- it is in a stack that was put aside, and the subroutines called since are left
  | cons top newer =>
    obtain ⟨-, haside⟩ := List.cons.inj hstacks
    rw [haside]
    exact (List.suffix_cons _ _).trans (List.suffix_append _ _)

theorem unwind_activations (env : Setting σ) (m : Machine σ) (failure : Failure) :
    (m.unwind env failure).2.activations = [] ∨ (m.unwind env failure).2 = m ∨
      ∃ c frames, findCaught m.scope m.activations = .ok c ∧
        (m.unwind env failure).2.activations = { c.activation with frames } :: c.callers := by
  unfold unwind
  by_cases hterminal : failure.fault.isTerminal = true
  · rw [if_pos hterminal]
    exact .inl rfl
  · rw [if_neg hterminal]
    rcases hfind : findCaught m.scope m.activations with s | c
    · exact .inl rfl
    · dsimp only
      obtain ⟨m', hhandle, hacts⟩ | ⟨hhandle, -⟩ := handle_cases env m failure c
      · rw [hhandle]
        exact .inr (.inr ⟨c, _, rfl, hacts⟩)
      · rw [hhandle]
        exact .inr (.inl rfl)

/-- A micro-step ends the run, or works on a unit and leaves those in front of it, or puts a
function in front. The rules of `Moves` fall into these three kinds, and what follows needs no other
distinction. -/
theorem Moves.front (moves : Moves env acts acts') :
    acts' = [] ∨
    (∃ inner act act' callers, acts = inner ++ act :: callers ∧ acts' = act' :: callers ∧
      act.Alters act') ∨
    ∃ name shadowed act act' callers, acts = act :: callers ∧
      acts' = Activation.new (.function name) shadowed :: act' :: callers ∧ act.Alters act' := by
  cases moves with
  -- nothing changes, and without units this is the first kind
  | stay =>
    cases acts with
    | nil => exact .inl rfl
    | cons act callers => exact .inr (.inl ⟨[], act, act, callers, rfl, rfl, .refl act⟩)
  | clear => exact .inl rfl
  | shift shifts subroutines saved callers =>
    exact .inr (.inl ⟨[], _, _, callers, rfl, rfl, rfl, rfl, .inl List.suffix_rfl⟩)
  | call known shallow u kind replay replay' below subroutines saved shadowed =>
    exact .inr (.inr ⟨_, shadowed, _, _, _, rfl, rfl, rfl, rfl, .inl List.suffix_rfl⟩)
  -- the function in front goes, and its caller has one result more
  | back last saved callers value =>
    cases callers with
    | nil => exact .inl rfl
    | cons act callers =>
      obtain ⟨act', hmap, halters⟩ :=
        mapFrame_cons (fun f => { f with replay := f.replay ++ [value] }) act callers
      exact .inr (.inl ⟨[_], act, act', callers, rfl, hmap, halters⟩)
  | jump hlabel hroot resumes before subroutines saved callers =>
    exact .inr (.inl ⟨[], _, _, callers, rfl, rfl, rfl, rfl, .inl List.suffix_rfl⟩)
  -- the only rule that adds to what is put aside
  | gosub shallow hlabel hroot resumes path next replay replay' below saved callers =>
    exact .inr (.inl ⟨[], _, _, callers, rfl, rfl, rfl, rfl, .inr ⟨_, rfl⟩⟩)
  | ret u frames caller subroutines saved callers =>
    exact .inr (.inl ⟨[], _, _, callers, rfl, rfl, rfl, rfl, .inl (List.suffix_cons _ _)⟩)
  -- the only rule that may take more than one unit away
  | @caught _ _ c found =>
    obtain ⟨inner, act, hacts, hunit, hsaved, haside⟩ := caught_split found
    exact .inr (.inl ⟨inner, act, _, c.callers, hacts, rfl, hunit, hsaved, .inl haside⟩)

/-- Of two units of a list the one with fewer callers is further down. The number of callers is
enough to compare places, as both are places in one list. -/
theorem split_of_length_le {inner₁ callers₁ : List Activation} {act₁ : Activation}
    (h : inner ++ act :: callers = inner₁ ++ act₁ :: callers₁)
    (hle : callers.length ≤ callers₁.length) :
    (inner = inner₁ ∧ act = act₁ ∧ callers = callers₁) ∨
      ∃ mid, inner = inner₁ ++ act₁ :: mid ∧ callers₁ = mid ++ act :: callers := by
  obtain ⟨mid, hinner, hrest⟩ | ⟨mid, hinner, hrest⟩ := List.append_eq_append_iff.mp h
  · -- the first list is the shorter one, so both are at the same unit
    have hlength := congrArg List.length hrest
    simp only [List.length_cons, List.length_append] at hlength
    have hmid : mid = [] := List.eq_nil_of_length_eq_zero (by omega)
    subst hmid
    rw [List.nil_append] at hrest
    obtain ⟨rfl, rfl⟩ := List.cons.inj hrest
    exact .inl ⟨by simpa using hinner.symm, rfl, rfl⟩
  · cases mid with
    | nil =>
      rw [List.nil_append] at hrest
      obtain ⟨rfl, rfl⟩ := List.cons.inj hrest
      exact .inl ⟨by simpa using hinner, rfl, rfl⟩
    | cons top mid =>
      rw [List.cons_append] at hrest
      obtain ⟨rfl, rfl⟩ := List.cons.inj hrest
      exact .inr ⟨mid, hinner, rfl⟩

/-- **What is under the unit that a micro-step works on stays as it is**, and a unit that is not
left stays what it is. -/
theorem Moves.keeps (moves : Moves env acts acts') (h : acts = inner ++ act :: callers)
    (stays : callers.length < acts'.length) :
    ∃ inner' act', acts' = inner' ++ act' :: callers ∧ act.Alters act' ∧
      (AllFunctions inner → AllFunctions inner') := by
  subst h
  obtain rfl | ⟨inner₁, act₁, act', callers₁, hacts, rfl, halters⟩ |
    ⟨name, shadowed, act₁, act', callers₁, hacts, rfl, halters⟩ := moves.front
  · simp at stays
  · -- the unit that is worked on is this one, or one further in
    have hle : callers.length ≤ callers₁.length := by simpa using Nat.lt_succ_iff.mp stays
    obtain ⟨rfl, rfl, rfl⟩ | ⟨mid, rfl, rfl⟩ := split_of_length_le hacts hle
    · exact ⟨[], act', rfl, halters, fun _ => nofun⟩
    · refine ⟨act' :: mid, act, rfl, .refl act, fun hinner => ?_⟩
      intro a ha
      rcases List.mem_cons.mp ha with rfl | ha
      · rw [halters.unit]
        exact hinner act₁ (by simp)
      · exact hinner a (by simp [ha])
  -- a function is put in front: of the unit itself, or of one further in
  · have hfront : AllFunctions [Activation.new (.function name) shadowed] := by
      intro a ha
      obtain rfl := List.mem_singleton.mp ha
      exact ⟨name, rfl⟩
    cases inner with
    | nil =>
      obtain ⟨rfl, rfl⟩ := List.cons.inj hacts
      exact ⟨[_], act', rfl, halters, fun _ => hfront⟩
    | cons top inner =>
      obtain ⟨rfl, rfl⟩ := List.cons.inj hacts
      refine ⟨_ :: act' :: inner, act, rfl, .refl act, fun hinner => ?_⟩
      intro a ha
      rcases List.mem_cons.mp ha with rfl | ha
      · exact hfront _ List.mem_cons_self
      rcases List.mem_cons.mp ha with rfl | ha
      · rw [halters.unit]
        exact hinner top List.mem_cons_self
      · exact hinner a (List.mem_cons_of_mem _ ha)

/-! ## Runs -/

/-- What happens to a machine while more than `depth` units are there. A unit with `depth` callers
is not left during it, though it may be worked on. -/
def Above (env : Setting σ) (depth : Nat) : Machine σ → Machine σ → Prop :=
  ReflTransGen fun m m' => Acts env m m' ∧ depth < m'.activations.length

/-- A unit that is not left stays where it is, with the same callers and the same bindings put
aside. The induction is on the run, and carries that only functions are in front of it. -/
theorem Above.keeps (above : Above env callers.length m m')
    (h : m.activations = inner ++ act :: callers) (functions : AllFunctions inner) :
    ∃ inner' act', m'.activations = inner' ++ act' :: callers ∧ act'.unit = act.unit ∧
      act'.saved = act.saved ∧ AllFunctions inner' := by
  unfold Above at above
  induction above with
  | refl => exact ⟨inner, act, h, rfl, rfl, functions⟩
  | tail _ hact ih =>
    obtain ⟨inner₁, act₁, h₁, hunit, hsaved, functions₁⟩ := ih
    obtain ⟨inner₂, act₂, h₂, halters, hfunctions⟩ :=
      hact.1.activations_moves.keeps h₁ hact.2
    exact ⟨inner₂, act₂, h₂, halters.unit.trans hunit, halters.saved.trans hsaved,
      hfunctions functions₁⟩

end Machine

end Stepwise
