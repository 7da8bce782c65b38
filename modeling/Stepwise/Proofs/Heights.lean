import Stepwise.Proofs.Placement

/-!
# Frames counted from the bottom

A frame has no name of its own, and its place in a list of stacks changes whenever something is put
in front of it. But nothing under a frame moves while the frame stands. So the numbers of
activations, stacks and frames under it tell from one micro-step to the next which frame it is: this
is its `Height`.

`Activation.kindAt?` reads off the kind of the frame at a height, which says everything of a frame
but the results of calls in it. All that a micro-step does to the stacks is to cut them down
(`Within.cut`, `Within.aside`) and to push frames on what is left (`kindAt?_push`).

The attempts of a retry are the reason. They are counted in a frame, and to say that one retry made
no more than its attempts there must be a way to say that a frame is the one that was there before.
`Proofs/RetrySteps` follows the frame of a retry by its height. What is at a height can still become
another frame, after the first one was left; that is a matter of time, which is looked at there.
-/

namespace Stepwise

/-! ## Stacks

Stacks are lists with their top in front. Counted from the bottom, an element keeps its number while
others come and go above it. -/

section

variable {α : Type} {x : α} {i : Nat}

/-- An element of a stack, counted from the bottom. -/
def fromBottom (stack : List α) (i : Nat) : Option α := stack.reverse[i]?

theorem fromBottom_cons (x : α) (below : List α) (i : Nat) :
    fromBottom (x :: below) i = if i = below.length then some x else fromBottom below i := by
  unfold fromBottom
  rw [List.reverse_cons, List.getElem?_append, List.length_reverse]
  by_cases hlt : i < below.length
  · rw [if_pos hlt, if_neg (Nat.ne_of_lt hlt)]
  rw [if_neg hlt]
  by_cases heq : i = below.length
  · rw [if_pos heq, heq, Nat.sub_self]
    rfl
  · have houtside : below.reverse.length ≤ i := by
      rw [List.length_reverse]
      exact Nat.le_of_not_lt hlt
    rw [if_neg heq, List.getElem?_eq_none houtside, List.getElem?_singleton, if_neg]
    omega

theorem fromBottom_cons_length (x : α) (below : List α) :
    fromBottom (x :: below) below.length = some x := by
  rw [fromBottom_cons, if_pos rfl]

theorem lt_of_fromBottom {stack : List α} (h : fromBottom stack i = some x) :
    i < stack.length := by
  have hlt := (List.getElem?_eq_some_iff.mp h).1
  rwa [List.length_reverse] at hlt

theorem mem_of_fromBottom {stack : List α} (h : fromBottom stack i = some x) : x ∈ stack :=
  List.mem_reverse.mp (List.mem_of_getElem? h)

theorem exists_fromBottom {stack : List α} (h : x ∈ stack) :
    ∃ i, fromBottom stack i = some x :=
  List.mem_iff_getElem?.mp (List.mem_reverse.mpr h)

theorem fromBottom_append {below : List α} (h : fromBottom below i = some x) (above : List α) :
    fromBottom (above ++ below) i = some x := by
  induction above with
  | nil => exact h
  | cons y above ih =>
    have hlt := lt_of_fromBottom h
    rw [List.cons_append, fromBottom_cons, if_neg, ih]
    rw [List.length_append]
    omega

/-- What stands in a stack stood there before something was put on it, or was put on it. The numbers
of the second kind start behind those of the first. -/
theorem fromBottom_of_append {above below : List α} (h : fromBottom (above ++ below) i = some x) :
    fromBottom below i = some x ∨ ∃ j, i = below.length + j ∧
      fromBottom above j = some x := by
  induction above with
  | nil => exact .inl h
  | cons y above ih =>
    rw [List.cons_append, fromBottom_cons] at h
    split at h
    · rename_i htop
      cases h
      refine .inr ⟨above.length, ?_, fromBottom_cons_length _ above⟩
      rw [htop, List.length_append, Nat.add_comm]
    · obtain hbelow | ⟨j, hj, habove⟩ := ih h
      · exact .inl hbelow
      · refine .inr ⟨j, hj, ?_⟩
        exact fromBottom_append habove [y]

theorem fromBottom_pair {y z : α} (h : fromBottom [x, y] i = some z) :
    (i = 0 ∧ z = y) ∨ (i = 1 ∧ z = x) := by
  simp only [fromBottom_cons, List.length_cons, List.length_nil] at h
  split at h
  · cases h
    exact .inr ⟨‹_›, rfl⟩
  split at h
  · cases h
    exact .inl ⟨‹_›, rfl⟩
  · cases h

end

/-! ## Heights -/

/-- What lies under a frame: activations that wait for its own, stacks that its activation put aside
before, and frames of its stack. Two frames of a machine never have the same height. -/
structure Height where
  callers : Nat
  older : Nat
  below : Nat
  deriving DecidableEq

/-- The height of the next frame. -/
def Height.above (spot : Height) : Height := { spot with below := spot.below + 1 }

theorem Height.eq_of_above {spot : Height} {callers older below : Nat}
    (h : spot.above = ⟨callers, older, below + 1⟩) : spot = ⟨callers, older, below⟩ := by
  obtain ⟨callers', older', below'⟩ := spot
  cases h
  rfl

namespace Activation

/-- The kind of the frame at a height. Stacks that were put aside count as lying under the live one,
in the order in which they were put there. -/
def kindAt? (acts : List Activation) (spot : Height) : Option FrameKind :=
  (fromBottom acts spot.callers).bind fun act =>
    (fromBottom (act.frames :: act.subroutines) spot.older).bind fun stack =>
      (fromBottom stack spot.below).map Frame.kind

variable {acts : List Activation} {act : Activation} {spot : Height} {kind : FrameKind}
  {u : CodeUnit} {frames above below : List Frame} {newer older : List (List Frame)}
  {saved : List (String × Option Value)} {inner callers : List Activation}

theorem kindAt?_eq_some : kindAt? acts spot = some kind ↔
    ∃ act stack f, fromBottom acts spot.callers = some act ∧
      fromBottom (act.frames :: act.subroutines) spot.older = some stack ∧
    fromBottom stack spot.below = some f ∧ f.kind = kind := by
  simp only [kindAt?, Option.bind_eq_some_iff, Option.map_eq_some_iff]
  constructor
  · rintro ⟨act, hact, stack, hstack, f, hf, hkind⟩
    exact ⟨act, stack, f, hact, hstack, hf, hkind⟩
  · rintro ⟨act, stack, f, hact, hstack, hf, hkind⟩
    exact ⟨act, hact, stack, hstack, f, hf, hkind⟩

/-- Every frame has a height, also one of a stack that was put aside. -/
theorem exists_kindAt? {stack : List Frame} {f : Frame} (hact : act ∈ acts)
    (hstack : stack ∈ act.frames :: act.subroutines) (hf : f ∈ stack) :
    ∃ spot, kindAt? acts spot = some f.kind := by
  obtain ⟨i, hi⟩ := exists_fromBottom hact
  obtain ⟨j, hj⟩ := exists_fromBottom hstack
  obtain ⟨k, hk⟩ := exists_fromBottom hf
  exact ⟨⟨i, j, k⟩, kindAt?_eq_some.mpr ⟨act, stack, f, hi, hj, hk, rfl⟩⟩

/-- A frame of the innermost activation that is not put aside. Under it are all activations but one,
all stacks but one, and the frames behind it in its own stack. -/
theorem kindAt?_top (u : CodeUnit) (above : List Frame) (f : Frame) (below : List Frame)
    (older : List (List Frame)) (saved : List (String × Option Value))
    (callers : List Activation) :
    kindAt? (⟨u, above ++ f :: below, older, saved⟩ :: callers)
      ⟨callers.length, older.length, below.length⟩ = some f.kind :=
  kindAt?_eq_some.mpr ⟨_, _, f, fromBottom_cons_length _ _, fromBottom_cons_length _ _,
    fromBottom_append (fromBottom_cons_length f below) above, rfl⟩

theorem kindAt?_beyond (i : Nat) : kindAt? (⟨u, below, older, saved⟩ :: callers)
    ⟨callers.length, older.length, below.length + i⟩ = none := by
  rw [Option.eq_none_iff_forall_ne_some]
  intro kind h
  obtain ⟨act, stack, f, hact, hstack, hf, -⟩ := kindAt?_eq_some.mp h
  rw [fromBottom_cons_length] at hact
  cases hact
  rw [fromBottom_cons_length] at hstack
  cases hstack
  have hlt := lt_of_fromBottom hf
  dsimp only at hlt
  omega

/-- A frame stood there before others were pushed, or is one of them. The cases are which
activation, which stack of it, and which part of the stack the height is in. -/
theorem kindAt?_push
    (h : kindAt? (⟨u, above ++ below, older, saved⟩ :: callers) spot = some kind) :
    kindAt? (⟨u, below, older, saved⟩ :: callers) spot = some kind ∨
      ∃ i f, spot = ⟨callers.length, older.length, below.length + i⟩ ∧
        fromBottom above i = some f ∧ f.kind = kind := by
  obtain ⟨n, j, k⟩ := spot
  obtain ⟨act, stack, f, hact, hstack, hf, hkind⟩ := kindAt?_eq_some.mp h
  rw [fromBottom_cons] at hact
  split at hact
  · rename_i htop
    cases hact
    rw [fromBottom_cons] at hstack
    split at hstack
    -- in the stack that was pushed on: under the new frames, or among them
    · rename_i hlive
      cases hstack
      obtain hbelow | ⟨i, hi, habove⟩ := fromBottom_of_append hf
      · refine .inl
          (kindAt?_eq_some.mpr ⟨⟨u, below, older, saved⟩, below, f, ?_, ?_, hbelow, hkind⟩)
        · rw [htop]
          exact fromBottom_cons_length _ _
        · rw [hlive]
          exact fromBottom_cons_length _ _
      · dsimp only at htop hlive hi
        rw [htop, hlive, hi]
        exact .inr ⟨i, f, rfl, habove, hkind⟩
    · refine .inl
        (kindAt?_eq_some.mpr ⟨⟨u, below, older, saved⟩, stack, f, ?_, ?_, hf, hkind⟩)
      · rw [htop]
        exact fromBottom_cons_length _ _
      · exact fromBottom_append hstack [below]
  -- in a caller, which stands as far from the bottom as before
  · refine .inl (kindAt?_eq_some.mpr ⟨act, stack, f, ?_, hstack, hf, hkind⟩)
    exact fromBottom_append hact [_]

theorem kindAt?_mapFrame {g : Frame → Frame} (hg : ∀ f, (g f).kind = f.kind)
    (acts : List Activation) (spot : Height) :
    kindAt? (mapFrame g acts) spot = kindAt? acts spot := by
  obtain _ | ⟨⟨u, _ | ⟨f, below⟩, older, saved⟩, callers⟩ := acts
  · rfl
  · rfl
  · simp only [mapFrame, kindAt?, fromBottom_cons]
    split
    · simp only [Option.bind_some]
      split
      · simp only [Option.bind_some, fromBottom_cons]
        split
        · simp only [Option.map_some, hg]
        · rfl
      · rfl
    · rfl

/-! ## Cutting down -/

/-- Every frame of the one stands in the other at the same height. All that leaves frames and adds
none is of this form. -/
def Within (acts acts' : List Activation) : Prop :=
  ∀ spot kind, kindAt? acts spot = some kind → kindAt? acts' spot = some kind

namespace Within

theorem refl (acts : List Activation) : Within acts acts := fun _ _ h => h

theorem trans {acts acts' acts'' : List Activation} (h : Within acts acts')
    (h' : Within acts' acts'') :
    Within acts acts'' :=
  fun spot kind hspot => h' spot kind (h spot kind hspot)

theorem nil (acts : List Activation) : Within [] acts := nofun

theorem mapFrame {g : Frame → Frame} (hg : ∀ f, (g f).kind = f.kind) (acts : List Activation) :
    Within (mapFrame g acts) acts :=
  fun spot _ h => (kindAt?_mapFrame hg acts spot).symm.trans h

theorem hold (u : CodeUnit) (kind : FrameKind) (replay replay' : List Value) (below : List Frame)
    (older : List (List Frame)) (saved : List (String × Option Value))
    (callers : List Activation) :
    Within (⟨u, ⟨kind, replay'⟩ :: below, older, saved⟩ :: callers)
      (⟨u, ⟨kind, replay⟩ :: below, older, saved⟩ :: callers) :=
  mapFrame (g := fun f => { f with replay := replay' }) (fun _ => rfl)
    (⟨u, ⟨kind, replay⟩ :: below, older, saved⟩ :: callers)

theorem drop (inner callers : List Activation) : Within callers (inner ++ callers) := by
  intro spot kind h
  obtain ⟨act, stack, f, hact, hrest⟩ := kindAt?_eq_some.mp h
  exact kindAt?_eq_some.mpr ⟨act, stack, f, fromBottom_append hact inner, hrest⟩

/-- Activations are left, and the stacks of the one that is innermost then are lowered. A stack may
also have become empty, as the live one does when it is put aside. -/
theorem lower {act' : Activation}
    (h : ∀ j stack, fromBottom (act.frames :: act.subroutines) j = some stack →
      stack = [] ∨ ∃ above, fromBottom (act'.frames :: act'.subroutines) j =
        some (above ++ stack))
    (inner callers : List Activation) : Within (act :: callers) (inner ++ act' :: callers) := by
  intro spot kind hspot
  obtain ⟨act₁, stack, f, hact, hstack, hf, hkind⟩ := kindAt?_eq_some.mp hspot
  rw [fromBottom_cons] at hact
  split at hact
  · rename_i htop
    cases hact
    obtain rfl | ⟨above, habove⟩ := h _ _ hstack
    · cases hf
    · refine kindAt?_eq_some.mpr
        ⟨act', above ++ stack, f, ?_, habove, fromBottom_append hf above, hkind⟩
      rw [htop]
      exact fromBottom_append (fromBottom_cons_length act' callers) inner
  · refine kindAt?_eq_some.mpr ⟨act₁, stack, f, ?_, hstack, hf, hkind⟩
    exact fromBottom_append (fromBottom_append hact [act']) inner

/-- Activations are left, then stacks that were put aside later, then the upper frames of a stack. A
handler that catches a fault does all three. -/
theorem cut (hstacks : act.frames :: act.subroutines = newer ++ (above ++ below) :: older)
    (u : CodeUnit) (saved : List (String × Option Value)) (inner callers : List Activation) :
    Within (⟨u, below, older, saved⟩ :: callers) (inner ++ act :: callers) := by
  refine lower ?_ inner callers
  intro j stack hstack
  rw [hstacks]
  rw [fromBottom_cons] at hstack
  split at hstack
  · rename_i hlive
    cases hstack
    rw [hlive]
    exact .inr ⟨above, fromBottom_append (fromBottom_cons_length _ older) newer⟩
  · exact .inr ⟨[], fromBottom_append (fromBottom_append hstack [_]) newer⟩

theorem cutTop (u : CodeUnit) (above below : List Frame) (older : List (List Frame))
    (saved : List (String × Option Value)) (callers : List Activation) :
    Within (⟨u, below, older, saved⟩ :: callers)
      (⟨u, above ++ below, older, saved⟩ :: callers) := by
  have hstacks : (above ++ below) :: older = [] ++ (above ++ below) :: older := rfl
  exact cut hstacks u saved [] callers

/-- A stack is put aside. It keeps its number, since the empty one that is live now comes on top of
it. -/
theorem aside (u : CodeUnit) (frames : List Frame) (older : List (List Frame))
    (saved : List (String × Option Value)) (callers : List Activation) :
    Within (⟨u, [], frames :: older, saved⟩ :: callers)
      (⟨u, frames, older, saved⟩ :: callers) := by
  refine lower ?_ [] callers
  intro j stack hstack
  rw [fromBottom_cons] at hstack
  split at hstack
  · cases hstack
    exact .inl rfl
  · exact .inr ⟨[], hstack⟩

theorem fresh (u : CodeUnit) (saved : List (String × Option Value)) (acts : List Activation) :
    Within (⟨u, [], [], saved⟩ :: acts) acts := by
  intro spot kind h
  obtain ⟨act, stack, f, hact, hstack, hf, hkind⟩ := kindAt?_eq_some.mp h
  rw [fromBottom_cons] at hact
  split at hact
  · cases hact
    obtain rfl : stack = [] := by simpa using mem_of_fromBottom hstack
    cases hf
  · exact kindAt?_eq_some.mpr ⟨act, stack, f, hact, hstack, hf, hkind⟩

end Within

end Activation

namespace Machine

open Activation

variable {σ : Type} {m : Machine σ}

/-! ## The frame in front -/

/-- The frame that a micro-step looks at, and its height. -/
def LooksAt (m : Machine σ) (spot : Height) (u : CodeUnit) (f : Frame) : Prop :=
  ∃ below older saved callers, m.activations = ⟨u, f :: below, older, saved⟩ :: callers ∧
    spot = ⟨callers.length, older.length, below.length⟩

theorem LooksAt.kindAt? {spot : Height} {u : CodeUnit} {f : Frame} (h : m.LooksAt spot u f) :
    kindAt? m.activations spot = some f.kind := by
  obtain ⟨below, older, saved, callers, hacts, rfl⟩ := h
  rw [hacts]
  exact kindAt?_top u [] f below older saved callers

/-! ## What the machine does -/

variable {env : Setting σ} {u : CodeUnit} {before : List Frame} {subroutines : List (List Frame)}
  {saved : List (String × Option Value)} {callers : List Activation}

/-- What an evaluation that stopped leaves: the stacks as they are, or a function on top of them. -/
theorem interrupt_leaves (env : Setting σ) (m : Machine σ) (line : Line) (i : Interrupt) :
    (m.interrupt env line i).activations =
        Activation.mapFrame (fun f => { f with replay := [] }) m.activations ∨
      ∃ name saved, (m.interrupt env line i).activations =
        Activation.new (.function name) saved :: m.activations := by
  cases i with
  | fault f => exact .inl (raise_activations m line f)
  | call name args =>
    unfold interrupt callFunction
    dsimp only
    split
    · exact .inl (raise_activations _ _ _)
    split
    · exact .inl (raise_activations _ _ _)
    split
    · exact .inl (raise_activations _ _ _)
    split
    · exact .inl (raise_activations _ _ _)
    · exact .inr ⟨name, _, rfl⟩

/-- An evaluation that stopped takes no frame away. It comes to a fault, which leaves the stacks for
the next micro-step, or to a function on top of them. -/
theorem within_interrupt (env : Setting σ) (m : Machine σ) (line : Line) (i : Interrupt) :
    Within m.activations (m.interrupt env line i).activations := by
  intro spot kind h
  obtain hsame | ⟨name, shadowed, hcall⟩ := interrupt_leaves env m line i
  · rw [hsame]
    exact (kindAt?_mapFrame (g := fun f => { f with replay := [] }) (fun _ => rfl) _ spot).trans h
  · rw [hcall]
    exact Within.drop [_] _ spot kind h

/-- A return goes back to the stack that was put aside last, or to the caller of a function, or ends
everything. -/
theorem ret_within (hm : m.activations = ⟨u, before, subroutines, saved⟩ :: callers)
    (value : Option Value) :
    Within (m.ret value).activations m.activations := by
  unfold ret
  rw [hm]
  cases subroutines with
  | cons caller older =>
    simp only [mapTop, hm]
    -- out of a subroutine: the live stack goes, and the one that was put aside is live again
    have hstacks : before :: caller :: older = [before] ++ ([] ++ caller) :: older := rfl
    exact Within.cut hstacks u saved [] callers
  | nil =>
    cases u with
    | main => exact Within.nil _
    | function name =>
      dsimp only
      rw [returnFromFunction_activations hm]
      refine Within.trans ?_ (Within.drop [_] callers)
      exact Within.mapFrame (g := fun f => { f with replay := f.replay ++ [value.getD .null] })
        (fun _ => rfl) _

/-- A statement that is done adds no frame, unless it is a jump. A jump takes all frames of its
stack and pushes those that lead to the label; a jump to a subroutine puts the stack aside first. -/
theorem apply_within (env : Setting σ)
    (hm : m.activations = ⟨u, before, subroutines, saved⟩ :: callers) (line : Line)
    (effect : Effect) :
    Within (m.apply env line effect).2.activations m.activations ∨
      ∃ label target root frames older, (effect = .jump label ∨ effect = .sub label) ∧
        env.program.label? u label = some target ∧ env.program.unitRoot? u = some root ∧
        Frame.resume root target = some frames ∧
        (m.apply env line effect).2.activations = ⟨u, frames, older, saved⟩ :: callers ∧
        Within (⟨u, [], older, saved⟩ :: callers) m.activations := by
  -- a fault forgets results and leaves the frames
  have raised : ∀ fault, Within (m.raise line fault).activations m.activations := by
    intro fault
    rw [raise_activations]
    exact Within.mapFrame (g := fun f => { f with replay := [] }) (fun _ => rfl) _
  cases effect with
  | value v =>
    rw [apply, recorded_snd]
    exact .inl (Within.refl _)
  | delay ns v =>
    rw [apply, recorded_snd]
    exact .inl (Within.refl _)
  | suspend =>
    rw [apply, recorded_snd]
    exact .inl (Within.refl _)
  | exit status =>
    rw [apply, recorded_snd]
    exact .inl (Within.nil _)
  | ret v =>
    rw [apply, recorded_snd]
    exact .inl (ret_within hm v)
  | jump label =>
    obtain ⟨hjump, -⟩ | ⟨hjump, -⟩ | ⟨target, root, frames, hjump, hlabel, hroot,
      hframes⟩ :=
      jump_cases env hm label
    · rw [apply, hjump]
      exact .inl (Within.refl _)
    · rw [apply, hjump]
      exact .inl (raised _)
    · rw [apply, hjump]
      dsimp only
      rw [recorded_snd, withFrames_activations hm, hm]
      refine .inr ⟨label, target, root, frames, subroutines, .inl rfl, hlabel, hroot,
        hframes, rfl, ?_⟩
      -- all frames of the stack are taken before those of the label are pushed
      have hcut := Within.cutTop u before [] subroutines saved callers
      rwa [List.append_nil] at hcut
  | sub label =>
    obtain ⟨hgosub, -⟩ | ⟨fault, hgosub⟩ |
      ⟨target, root, frames, m', hgosub, -, hlabel, hroot, hframes, hm'⟩ :=
      gosub_cases env hm label
    · rw [apply, hgosub]
      exact .inl (Within.refl _)
    · rw [apply, hgosub]
      exact .inl (raised _)
    · rw [apply, hgosub]
      dsimp only
      rw [recorded_snd, hm', hm]
      exact .inr ⟨label, target, root, frames, before :: subroutines, .inr rfl, hlabel, hroot,
        hframes, rfl, Within.aside u before subroutines saved callers⟩

end Machine

end Stepwise
