import Mathlib.Data.List.Lex
import Stepwise.Proofs.Driving
import Stepwise.Proofs.Ending
import Stepwise.Proofs.Parameters
import Stepwise.Proofs.Provenance
import Stepwise.Proofs.Work

/-!
# Runs that end

A program that has neither loops nor jumps comes to its end, with whatever scope, host and options
it is run, and although its functions may call themselves, its subroutines may enter themselves, and
its retries may start again (`straight_runs_end`).

## The measure

The measure is a list: the prices of all stacks of a machine, the outermost first (`levels`). A
micro-step that works on the innermost stack makes it cheaper. A call or a subroutine adds a stack,
but the one that it starts from has paid for it, and that stands further left. A return takes stacks
away. So the lists fall in the lexicographic order. That order is not well-founded, but on lists of
bounded length it is, and the depths of calls and of subroutines are bounded.

A single number would not do. What a call costs depends on the depth at which it is made, since at
the limit it costs no more than a fault, and below it as much as the body of the function with all
that this calls. The list leaves the body of a function out of the price of a call altogether, and
counts only that a call was made.

## Layout

The prices of single stacks are in `Proofs/Work`. The section on levels says for each thing that can
happen to the stacks (one goes on, a subroutine starts or is left, a function starts or is left, a
handler starts) that the list falls, whatever machine it happens to. The next section goes through
the cases of a micro-step (`Proofs/Ticked`) and finds one of these in each. That a function which
starts was asked for by a call that is not paid for yet comes from the books of `Proofs/Provenance`.
Depths are counted along the moves of `Proofs/Moves`.
-/

namespace Stepwise

open Relation Activation

/-! ## Lists of prices

The order, and the one fact about it that is not in the library: with a bound on the length there is
no endless descent. -/

/-- Lexicographically smaller, the first entry counting most. A list that goes on is larger than one
that stops, so a stack that is gone makes a machine cheaper. -/
def Cheaper : List Nat → List Nat → Prop := List.Lex (· < ·)

namespace Cheaper

theorem of_lt (front : List Nat) {x y : Nat} (h : x < y) (rest rest' : List Nat) :
    Cheaper (front ++ x :: rest) (front ++ y :: rest') :=
  List.Lex.append_left _ (.rel h) front

theorem of_more (front : List Nat) {rest : List Nat} (h : rest ≠ []) :
    Cheaper front (front ++ rest) := by
  obtain ⟨y, rest, rfl⟩ := List.exists_cons_of_ne_nil h
  have hlex : List.Lex (· < ·) (front ++ []) (front ++ y :: rest) :=
    List.Lex.append_left _ .nil front
  rwa [List.append_nil] at hlex

/-- **On lists of bounded length there is no endless descent.** The induction is on the bound. A
list is an entry and a shorter list, and these two fall in their own lexicographic order. -/
theorem accessible (n : Nat) : ∀ l : List Nat, l.length ≤ n →
    Acc (fun a b : List Nat => a.length ≤ n ∧ Cheaper a b) l := by
  have hnil (n : Nat) : Acc (fun a b : List Nat => a.length ≤ n ∧ Cheaper a b) [] :=
    .intro _ fun a h => nomatch h.2
  induction n with
  | zero =>
    intro l hl
    rw [List.length_eq_zero_iff.mp (Nat.le_zero.mp hl)]
    exact hnil 0
  | succ n ih =>
    -- first on the entry in front, then on the list behind it, which is shorter
    have hcons : ∀ x l, l.length ≤ n →
        Acc (fun a b : List Nat => a.length ≤ n + 1 ∧ Cheaper a b) (x :: l) := by
      intro x
      induction x using Nat.strong_induction_on with
      | _ x ihx =>
        intro l hl
        have hacc := ih l hl
        clear hl
        induction hacc with
        | intro l _ ihl =>
          refine .intro _ fun a ha => ?_
          obtain ⟨hlength, hlex⟩ := ha
          cases hlex with
          | nil => exact hnil _
          | rel hlt => exact ihx _ hlt _ (Nat.le_of_succ_le_succ hlength)
          -- the entry is the same, and the list behind it falls
          | cons hlex => exact ihl _ ⟨Nat.le_of_succ_le_succ hlength, hlex⟩
    intro l hl
    cases l with
    | nil => exact hnil _
    | cons x l => exact hcons x l (Nat.le_of_succ_le_succ hl)

end Cheaper

/-! ## Levels

Each unit has one level for the stack in front and one for every stack that it has put aside. In the
list of a machine the levels of the main program stand first, so what a unit does counts less the
more callers it has. -/

namespace Activation

variable {p : Program} {stance stance' : Stance} {u : CodeUnit} {frames frames' : List Frame}
  {subroutines : List (List Frame)} {saved saved' : List (String × Option Value)}
  {acts callers : List Activation}

/-- The prices of the stacks of a unit, the outermost first. -/
def levels (p : Program) (stance : Stance) (act : Activation) : List Nat :=
  (act.subroutines.map (Frame.total p act.unit)).reverse ++
    [Frame.stackPrice p act.unit stance act.frames]

/-- The prices of all stacks. Units that have another one in front of them wait for it: the call
that they are in has no result yet, but it is paid for. -/
def listLevels (p : Program) (stance : Stance) : List Activation → List Nat
  | [] => []
  | act :: callers => listLevels p .waits callers ++ act.levels p stance

theorem levels_ne_nil (act : Activation) : act.levels p stance ≠ [] := by
  simp [levels]

/-- The prices of the stacks under that in front. They are the same before and behind whatever only
the stack in front does. -/
def outerLevels (p : Program) (u : CodeUnit) (subroutines : List (List Frame))
    (callers : List Activation) : List Nat :=
  listLevels p .waits callers ++ (subroutines.map (Frame.total p u)).reverse

theorem listLevels_cons :
    listLevels p stance (⟨u, frames, subroutines, saved⟩ :: callers) =
      outerLevels p u subroutines callers ++ [Frame.stackPrice p u stance frames] := by
  simp [listLevels, levels, outerLevels]

theorem outerLevels_cons (stack : List Frame) :
    outerLevels p u (stack :: subroutines) callers =
      outerLevels p u subroutines callers ++ [Frame.total p u stack] := by
  simp [outerLevels]

theorem cheaper_front
    (h : Frame.stackPrice p u stance' frames' < Frame.stackPrice p u stance frames) :
    Cheaper (listLevels p stance' (⟨u, frames', subroutines, saved'⟩ :: callers))
      (listLevels p stance (⟨u, frames, subroutines, saved⟩ :: callers)) := by
  rw [listLevels_cons, listLevels_cons]
  exact .of_lt _ h [] []

/-- A subroutine starts, on what is left of the stack in front. The entry that falls is that of the
stack which is put aside; what stands behind it, the new stack in front, does not matter. -/
theorem cheaper_gosub {stack : List Frame} (h : Frame.total p u stack < Frame.total p u frames) :
    Cheaper (listLevels p stance (⟨u, frames', stack :: subroutines, saved⟩ :: callers))
      (listLevels p .runs (⟨u, frames, subroutines, saved⟩ :: callers)) := by
  rw [listLevels_cons, listLevels_cons, outerLevels_cons, Frame.stackPrice_runs, List.append_assoc]
  exact .of_lt _ h _ []

/-- A subroutine is left, and the stack that it was called from is in front again. -/
theorem cheaper_ret (stack : List Frame) :
    Cheaper (listLevels p .runs (⟨u, stack, subroutines, saved⟩ :: callers))
      (listLevels p stance (⟨u, frames, stack :: subroutines, saved⟩ :: callers)) := by
  rw [listLevels_cons, listLevels_cons, outerLevels_cons, Frame.stackPrice_runs]
  exact .of_more _ (List.cons_ne_nil _ _)

/-- A function starts. The call that is made is paid for, so the caller is cheaper than before, and
the function stands behind it in the list. -/
theorem cheaper_call {kind : FrameKind} {replay replay' : List Value} {below : List Frame}
    (grown : replay <+: replay') (hcalls : replay'.length < (kind.evaluation p u).calls)
    (act : Activation) :
    Cheaper
      (listLevels p stance
        (act :: ⟨u, ⟨kind, replay'⟩ :: below, subroutines, saved⟩ :: callers))
      (listLevels p .runs
        (⟨u, ⟨kind, replay⟩ :: below, subroutines, saved⟩ :: callers)) := by
  have hprice : Frame.stackPrice p u .waits (⟨kind, replay'⟩ :: below) <
      Frame.stackPrice p u .runs (⟨kind, replay⟩ :: below) := by
    have hlength := grown.length_le
    simp only [Frame.stackPrice, Frame.price, Stance.due]
    omega
  rw [listLevels, listLevels_cons, listLevels_cons, List.append_assoc]
  exact .of_lt _ hprice _ []

/-- A function is left. Its caller waited for the result that it has now, so that it costs as much
as before; what has gone is the level of the function. -/
theorem listLevels_mapFrame (v : Value) (acts : List Activation) :
    listLevels p .runs (mapFrame (fun f => { f with replay := f.replay ++ [v] }) acts) =
      listLevels p .waits acts := by
  rcases acts with _ | ⟨⟨u, _ | ⟨f, below⟩, subroutines, saved⟩, callers⟩
  · rfl
  · rfl
  · simp [mapFrame, listLevels, levels, Frame.stackPrice, Frame.price, Stance.due]

theorem listLevels_append (inner : List Activation) (act : Activation) (callers : List Activation)
    (stance : Stance) :
    ∃ stance' rest, listLevels p stance (inner ++ act :: callers) =
      listLevels p .waits callers ++ act.levels p stance' ++ rest := by
  induction inner generalizing stance with
  | nil => exact ⟨stance, [], by simp [listLevels]⟩
  | cons first inner ih =>
    obtain ⟨stance', rest, hrest⟩ := ih .waits
    refine ⟨stance', rest ++ first.levels p stance, ?_⟩
    rw [List.cons_append, listLevels, hrest, List.append_assoc]

/-- A stack costs at least what is behind the evaluation of one of its frames, and the frames under
it. -/
theorem rest_le_stackPrice (stance : Stance) (above : List Frame) (f : Frame)
    (frames : List Frame) :
    f.kind.rest p u + Frame.total p u frames ≤
      Frame.stackPrice p u stance (above ++ f :: frames) := by
  cases above with
  | nil => exact Nat.add_le_add_right (Frame.rest_le_price stance f) _
  | cons g above =>
    have hf : f.kind.rest p u ≤ f.price p u .runs := Frame.rest_le_price .runs f
    simp only [List.cons_append, Frame.stackPrice, Frame.total_append, Frame.total_cons]
    omega

/-- The level of the frame that catches a fault, and those under it in its unit. -/
theorem levels_of_caught {act : Activation} {newer : List (List Frame)}
    {above : List Frame} {f : Frame} (p : Program) (stance : Stance)
    (hstacks : act.frames :: act.subroutines = newer ++ (above ++ f :: frames) :: subroutines) :
    ∃ price rest, f.kind.rest p act.unit + Frame.total p act.unit frames ≤ price ∧
      act.levels p stance = (subroutines.map (Frame.total p act.unit)).reverse ++
        price :: rest := by
  cases newer with
  | nil =>
    obtain ⟨hframes, hsubroutines⟩ := List.cons.inj hstacks
    refine ⟨_, [], rest_le_stackPrice stance above f frames, ?_⟩
    rw [levels, hframes, hsubroutines]
  | cons top newer =>
    obtain ⟨-, hsubroutines⟩ := List.cons.inj hstacks
    refine ⟨_,
      (newer.map (Frame.total p act.unit)).reverse ++
        [Frame.stackPrice p act.unit stance act.frames],
      rest_le_stackPrice .runs above f frames, ?_⟩
    rw [levels, hsubroutines, Frame.stackPrice_runs]
    simp

/-- A handler starts, and what is in front of it is dropped. The entry that falls is that of the
stack with the handler, which may be one that was put aside, or that of a caller. -/
theorem cheaper_caught {act : Activation} {newer : List (List Frame)} {above started : List Frame}
    {f : Frame} (inner callers : List Activation)
    (hstacks : act.frames :: act.subroutines = newer ++ (above ++ f :: frames) :: subroutines)
    (hpaid : Frame.total p act.unit started < f.kind.rest p act.unit) :
    Cheaper
      (listLevels p stance' (⟨act.unit, started ++ frames, subroutines, saved⟩ :: callers))
        (listLevels p stance (inner ++ act :: callers)) := by
  obtain ⟨stance, rest, hlevels⟩ := listLevels_append inner act callers stance
  obtain ⟨price, rest', hle, hact⟩ := levels_of_caught p stance hstacks
  -- the frame that has caught the fault has paid for the frames that start in its place
  have hprice : Frame.stackPrice p act.unit stance' (started ++ frames) < price := by
    have htotal := Frame.stackPrice_le_total (p := p) (u := act.unit) stance' (started ++ frames)
    rw [Frame.total_append] at htotal
    omega
  rw [hlevels, hact, listLevels_cons, outerLevels, List.append_assoc _ _ rest,
    List.append_assoc _ _ rest, ← List.append_assoc _ _ (_ :: _ ++ rest)]
  exact .of_lt _ hprice _ _

end Activation

namespace Machine

variable {σ : Type} {env : Setting σ} {m m' : Machine σ} {p : Program} {u : CodeUnit}
  {subroutines : List (List Frame)} {saved : List (String × Option Value)}
  {callers : List Activation}

/-- How the innermost frame of a machine stands. With a fault pending it does not go on with its
evaluation, and owes nothing for it. -/
def stance (m : Machine σ) : Stance := if m.pending.isSome then .fails else .runs

/-- The prices of all stacks of a machine. -/
def levels (p : Program) (m : Machine σ) : List Nat := listLevels p m.stance m.activations

theorem stance_of_none (h : m.pending = none) : m.stance = .runs := by
  simp [stance, h]

theorem levels_of_front {act : Activation} (going : m.pending = none)
    (front : m.activations = act :: callers) :
    m.levels p = listLevels p .runs (act :: callers) := by
  rw [levels, stance_of_none going, front]

theorem cheaper_nothing {stance : Stance} (nothing : m.activations = []) (act : Activation) :
    Cheaper (m.levels p) (listLevels p stance (act :: callers)) := by
  rw [levels, nothing]
  exact .of_more [] (List.append_ne_nil_of_right_ne_nil _ (levels_ne_nil act))

theorem cheaper_of_left (left : m.activations ≠ []) (nothing : m'.activations = []) :
    Cheaper (m'.levels p) (m.levels p) := by
  obtain ⟨act, callers, front⟩ := List.exists_cons_of_ne_nil left
  rw [levels.eq_def p m, front]
  exact cheaper_nothing nothing act

/-- A fault is raised where the evaluation in front is not paid for any more. The activations keep
their shape, and only the stance of the innermost frame changes. -/
theorem cheaper_raise {f : Frame} {kind : FrameKind} {replay : List Value} {below : List Frame}
    (hm : m.activations = ⟨u, ⟨kind, replay⟩ :: below, subroutines, saved⟩ :: callers)
    (hpaid : kind.rest p u < f.price p u .runs) (line : Line) (fault : Fault) :
    Cheaper ((m.raise line fault).levels p)
      (listLevels p .runs (⟨u, f :: below, subroutines, saved⟩ :: callers)) := by
  have hreach : (m.raise line fault).activations =
      ⟨u, ⟨kind, []⟩ :: below, subroutines, saved⟩ :: callers := by
    rw [raise_activations, hm]
    rfl
  have hstance : (m.raise line fault).stance = .fails := rfl
  rw [levels, hreach, hstance]
  refine cheaper_front ?_
  simp only [Frame.stackPrice, Frame.price, Stance.due] at hpaid ⊢
  omega

/-- A function is left. The caller has a result more and a call less to wait for. -/
theorem cheaper_back {act : Activation} {stance : Stance} (going : m.pending = none)
    (front : m.activations = act :: callers) (v : Value) (act' : Activation) :
    Cheaper ((m.returnFromFunction v).levels p) (listLevels p stance (act' :: callers)) := by
  have hgoing : (m.returnFromFunction v).pending = none :=
    (pending_returnFromFunction m v).trans going
  rw [levels, stance_of_none hgoing, returnFromFunction_activations front, listLevels_mapFrame]
  exact .of_more _ (levels_ne_nil act')

/-! ## One micro-step

Where a fault is pending the micro-step unwinds, and otherwise it works on the innermost stack. A
function that starts is taken out of the case analysis and comes in by `Replays.cheaper`, since the
price of a call needs to know that the call has not been made before. -/

section

variable {path : BlockPath} {next : Nat} {replay replay' : List Value} {below : List Frame}
  {stmt : Stmt}

theorem ret_cheaper (going : m.pending = none)
    (hm : m.activations =
      ⟨u, ⟨.block path (next + 1), replay'⟩ :: below, subroutines, saved⟩ :: callers)
    (v : Option Value) :
    Cheaper ((m.ret v).levels p)
      (listLevels p .runs
        (⟨u, ⟨.block path next, replay⟩ :: below, subroutines, saved⟩ :: callers)) := by
  have hgoing : (m.ret v).pending = none := (pending_ret m v).trans going
  cases subroutines with
  | cons caller older =>
    have hreach : (m.ret v).activations = ⟨u, caller, older, saved⟩ :: callers := by
      simp [ret, mapTop, hm]
    rw [levels_of_front hgoing hreach]
    exact cheaper_ret caller
  | nil =>
    cases u with
    | main =>
      have hret : m.ret v = m.terminate v := by simp [ret, hm]
      rw [hret]
      exact cheaper_nothing rfl _
    | function name =>
      have hret : m.ret v = m.returnFromFunction (v.getD .null) := by simp [ret, hm]
      rw [hret]
      exact cheaper_back going hm _ _

/-- A simple statement is done. The stack behind it is cheaper by the statement, and what the
statement asks for is done to that stack. -/
theorem apply_cheaper (straight : env.program.isStraight = true)
    (hstmt : env.program.stmt? u ⟨path, next⟩ = some stmt) {effect : Effect}
    (yields : stmt.Yields effect) (going : m.pending = none)
    (hm : m.activations =
      ⟨u, ⟨.block path (next + 1), replay'⟩ :: below, subroutines, saved⟩ :: callers) :
    Cheaper ((m.apply env stmt.line effect).2.levels env.program)
      (listLevels env.program .runs
        (⟨u, ⟨.block path next, replay⟩ :: below, subroutines, saved⟩ :: callers)) := by
  have hpass := Frame.price_pass hstmt replay replay'
  have htotal : Frame.total env.program u (⟨.block path (next + 1), replay'⟩ :: below) <
      Frame.total env.program u (⟨.block path next, replay⟩ :: below) := by
    simp only [Frame.total_cons]
    omega
  -- most statements leave the stack as it is behind them
  have passed : ∀ m₁ : Machine σ, m₁.pending = m.pending →
      m₁.activations = m.activations →
      Cheaper (m₁.levels env.program) (listLevels env.program .runs
        (⟨u, ⟨.block path next, replay⟩ :: below, subroutines, saved⟩ :: callers)) := by
    intro m₁ hpending hreach
    rw [levels_of_front (hpending.trans going) (hreach.trans hm)]
    refine cheaper_front ?_
    rwa [Frame.stackPrice_runs, Frame.stackPrice_runs]
  cases yields with
  | value _ v =>
    rw [apply, recorded_snd]
    exact passed m rfl rfl
  | delay duration line ns v =>
    rw [apply, recorded_snd]
    exact passed _ rfl rfl
  | suspend line =>
    rw [apply, recorded_snd]
    exact passed _ rfl rfl
  | exit value line v =>
    rw [apply, recorded_snd]
    exact cheaper_nothing rfl _
  | ret value line v =>
    rw [apply, recorded_snd]
    exact ret_cheaper going hm v
  | jump label line => cases Program.mayRepeat_of_isStraight straight hstmt
  | sub label line =>
    obtain ⟨hgosub, -⟩ | ⟨fault, hgosub⟩ | ⟨target, root, frames, m', hgosub, -, -, -, -,
      hreach⟩ :=
      gosub_cases env hm label
    · rw [apply, hgosub]
      exact passed m rfl rfl
    · rw [apply, hgosub]
      refine cheaper_raise hm ?_ _ fault
      have hrest : (FrameKind.block path (next + 1)).rest env.program u <
          Frame.price env.program u .runs ⟨.block path (next + 1), replay'⟩ :=
        Frame.rest_lt_price _ _
      omega
    · rw [apply, hgosub]
      dsimp only
      rw [recorded_snd, levels, hreach]
      exact cheaper_gosub htotal

end

/-- A fault unwinds to a handler, or ends the run. Placement is needed for the price of the handler,
which is read off the statement that the frame stands for. -/
theorem unwind_cheaper (placed : AllPlaced env.program m.activations) (left : m.activations ≠ [])
    (failure : Failure) (sound : (m.unwind env failure).1 ≠ .defect) :
    Cheaper ((m.unwind env failure).2.levels env.program) (m.levels env.program) := by
  unfold unwind at sound ⊢
  by_cases hterminal : failure.fault.isTerminal = true
  · rw [if_pos hterminal]
    exact cheaper_of_left left rfl
  rw [if_neg hterminal] at sound ⊢
  rcases hfind : findCaught m.scope m.activations with s | c
  · exact cheaper_of_left left rfl
  rw [hfind] at sound
  dsimp only at sound ⊢
  obtain ⟨m', hhandle, hm'⟩ | ⟨hhandle, -⟩ := handle_cases env m failure c
  · rw [hhandle]
    obtain ⟨inner, act, newer, above, f, hreach, hstacks, hhandler, hunit, -⟩ :=
      findCaught_ok hfind
    obtain ⟨⟨root, hact⟩, -⟩ := AllPlaced.cons_iff.mp (hreach ▸ placed).suffix
    have hpaid := Frame.price_handler hact.unit (hact.of_stacks hstacks) hhandler
    have hstarted : m'.activations = ⟨act.unit, c.handler.frames ++ c.activation.frames,
        c.activation.subroutines, c.activation.saved⟩ :: c.callers := by
      rw [hm', ← hunit]
    dsimp only
    rw [levels, levels, hstarted, hreach]
    exact cheaper_caught inner c.callers hstacks hpaid
  · rw [hhandle] at sound
    exact absurd rfl sound

/-- A micro-step that starts no function makes a stack cheaper, or takes stacks away. That it starts
none is said by the number of units, which is what the next theorem has at hand. -/
theorem Ticked.cheaper {r : Tick × Machine σ} (h : Ticked env m r)
    (straight : env.program.isStraight = true) (placed : AllPlaced env.program m.activations)
    (left : m.activations ≠ []) (sound : r.1 ≠ .defect)
    (level : m.pending = none → r.2.activations.length ≤ m.activations.length) :
    Cheaper (r.2.levels env.program) (m.levels env.program) := by
  cases h with
  | astray => exact absurd rfl sound
  | cancelled line => exact cheaper_of_left left rfl
  | unwind pending => exact unwind_cheaper placed left _ sound
  | idle going nothing => exact absurd nothing left
  | ended going => exact cheaper_of_left left rfl
  | back going front =>
    rw [levels_of_front going front]
    exact cheaper_back going front .null _
  | @moved store going same frames u before subroutines saved callers front shifts other =>
    obtain ⟨⟨root, hact⟩, -⟩ := AllPlaced.cons_iff.mp (front ▸ placed)
    have hprice := Frame.price_shift straight hact.unit hact.frames shifts other
    have hgoing : ({ m with store }.withFrames frames).pending = none :=
      (pending_withFrames _ _).trans going
    have hreach : ({ m with store }.withFrames frames).activations =
        ⟨u, frames, subroutines, saved⟩ :: callers :=
      withFrames_activations (m := { m with store }) front _
    rw [levels_of_front going front, levels_of_front hgoing hreach]
    refine cheaper_front ?_
    rwa [Frame.stackPrice_runs, Frame.stackPrice_runs]
  -- the statement has been passed when its effect is applied
  | @ran u path next replay below subroutines saved callers stmt e effect going front hstmt
    hexec hresult =>
    have hreach := withFrames_activations (m := { m with store := e.store }) front
      (⟨.block path (next + 1), e.replay⟩ :: below)
    rw [levels_of_front going front]
    exact apply_cheaper straight hstmt (Stmt.yields_of_execute hexec hresult)
      ((pending_withFrames _ _).trans going) hreach
  | @stopped u kind replay replay' below subroutines saved callers store line i going front stops =>
    have hreach : ({ m with store }.withFrames (⟨kind, replay'⟩ :: below)).activations =
        ⟨u, ⟨kind, replay'⟩ :: below, subroutines, saved⟩ :: callers :=
      withFrames_activations (m := { m with store }) front _
    have hpaid := Frame.rest_lt_price (p := env.program) (u := u) kind replay
    rw [levels_of_front going front]
    cases i with
    | fault f => exact cheaper_raise hreach hpaid line f
    | call name args =>
      obtain ⟨fault, refused⟩ | ⟨d, saved', enters⟩ := callFunction_cases env
        ({ m with store }.withFrames (⟨kind, replay'⟩ :: below)) line name args
      · obtain ⟨s, hcall, -⟩ := callFunction_refused refused line
        dsimp only [interrupt]
        rw [hcall]
        exact cheaper_raise (m := Machine.withScope _ s) hreach hpaid line fault
      · -- a function that starts is one unit more
        have hlevel := level going
        simp only [interrupt] at hlevel
        rw [enters.activations, hreach, front, List.length_cons, List.length_cons] at hlevel
        exact absurd hlevel (Nat.not_succ_le_self _)

/-- A function that starts was asked for by a call that is left: the frame has fewer results than
its evaluation has calls. -/
theorem Replays.cheaper {acts : List Activation} (h : Replays env m acts) (going : m.pending = none)
    (longer : m.activations.length < acts.length) (stance : Stance) :
    Cheaper (listLevels env.program stance acts) (m.levels env.program) := by
  cases h with
  | call front stops shadowed =>
    rw [levels_of_front going front]
    exact cheaper_call stops.grown stops.lt_calls _
  | ended => cases longer
  | caught found failed unit idle => exact absurd going failed
  | settles front going settles =>
    rw [front] at longer
    cases settles with
    | ended => cases longer
    | idle unit idle => exact absurd longer (Nat.lt_irrefl _)
    | back unit value =>
      rw [length_mapFrame] at longer
      exact absurd longer (by simp)

/-- **Every micro-step of a straight program makes its machine cheaper**, as long as units are left.
Either a unit more is there, and then a function was called, or there is none, and the case analysis
applies. -/
theorem tick_cheaper {books : List (List Producer)} (linked : env.program.Linked)
    (straight : env.program.isStraight = true) (audited : Audited env m books)
    (left : m.activations ≠ []) :
    Cheaper ((m.tick env).2.levels env.program) (m.levels env.program) := by
  have sound := tick_ne_defect linked audited.placed
  by_cases hcall : m.pending = none ∧ m.activations.length < (m.tick env).2.activations.length
  · have hbalanced := audited.balanced linked
    have hreplays := tick_replays hbalanced.behind (fun _ _ => hbalanced.nothing) sound
    exact hreplays.cheaper hcall.1 hcall.2 _
  · refine (tick_ticked env m).cheaper straight audited.placed left sound ?_
    intro going
    exact Nat.not_lt.mp fun longer => hcall ⟨going, longer⟩

/-! ## Depths

The lengths of the lists. The options bound the number of units, and with the same number the stacks
that each unit has put aside; together they bound the entries of a list. -/

/-- Calls and subroutines nest up to a depth. The main program is no call, so there is one unit
more. -/
structure Shallow (depth : Nat) (acts : List Activation) : Prop where
  units : acts.length ≤ depth + 1
  subroutines : ∀ act ∈ acts, act.subroutines.length ≤ depth

namespace Shallow

variable {depth : Nat} {act act' : Activation} {acts inner : List Activation}

theorem suffix (h : Shallow depth (inner ++ acts)) : Shallow depth acts := by
  refine ⟨Nat.le_trans ?_ h.units,
    fun act hact => h.subroutines act (List.mem_append_right _ hact)⟩
  simp

theorem tail (h : Shallow depth (act :: callers)) : Shallow depth callers := by
  have happend : Shallow depth ([act] ++ callers) := h
  exact happend.suffix

theorem front (h : Shallow depth (act :: callers)) : act.subroutines.length ≤ depth :=
  h.subroutines act List.mem_cons_self

theorem replace (h : Shallow depth (act :: callers))
    (hsubroutines : act'.subroutines.length ≤ depth) :
    Shallow depth (act' :: callers) := by
  refine ⟨h.units, ?_⟩
  intro a ha
  obtain rfl | ha := List.mem_cons.mp ha
  · exact hsubroutines
  · exact h.subroutines a (List.mem_cons_of_mem _ ha)

/-- No unit has more levels than the depth allows, the stack in front included. -/
theorem length_listLevels_le (h : Shallow depth acts) (p : Program) (stance : Stance) :
    (listLevels p stance acts).length ≤ acts.length * (depth + 1) := by
  induction acts generalizing stance with
  | nil => exact Nat.zero_le _
  | cons act callers ih =>
    have hlevels : (act.levels p stance).length ≤ depth + 1 := by
      simpa [Activation.levels] using h.front
    rw [listLevels, List.length_append, List.length_cons, Nat.succ_mul]
    exact Nat.add_le_add (ih h.tail .waits) hlevels

end Shallow

/-- The depths of a machine stay within the limit that its options set. A call and a subroutine
check the limit themselves; all else keeps a depth or lowers it. -/
theorem Moves.shallow {acts acts' : List Activation} (h : Moves env acts acts')
    (hshallow : Shallow env.options.maxCallDepth acts) :
    Shallow env.options.maxCallDepth acts' := by
  cases h with
  | stay => exact hshallow
  | clear => exact ⟨Nat.zero_le _, List.forall_mem_nil _⟩
  | shift => exact hshallow.replace hshallow.front
  | jump => exact hshallow.replace hshallow.front
  -- the limit was checked when the stack was put aside
  | gosub shallow => exact hshallow.replace shallow
  | ret => exact hshallow.replace (Nat.le_of_succ_le hshallow.front)
  -- the limit was checked for the units, and the new one has nothing aside
  | @call _ _ callers known shallow u kind replay replay' below subroutines saved shadowed =>
    refine ⟨Nat.succ_le_succ shallow, ?_⟩
    intro act hact
    obtain rfl | hact := List.mem_cons.mp hact
    · exact Nat.zero_le _
    · have hcaller : Shallow env.options.maxCallDepth
          (⟨u, ⟨kind, replay'⟩ :: below, subroutines, saved⟩ :: callers) :=
        hshallow.replace hshallow.front
      exact hcaller.subroutines act hact
  | back last saved callers value =>
    have hcallers := hshallow.tail
    rcases callers with _ | ⟨⟨u, _ | ⟨f, below⟩, subroutines, saved⟩, callers⟩
    · exact hcallers
    · exact hcallers
    · exact hcallers.replace hcallers.front
  | @caught _ _ c found =>
    obtain ⟨inner, act, rfl, -, -, hsubroutines⟩ := caught_split found
    have hact : Shallow env.options.maxCallDepth (act :: c.callers) := hshallow.suffix
    exact hact.replace (Nat.le_trans hsubroutines.length_le hact.front)

/-! ## Whole runs

The descent as an induction over the machines of a run, and then the three ways to come to an end:
micro-steps, the next step, and running on. -/

section

variable {script : Block}

theorem Reachable.shallow (h : Reachable env m) :
    Shallow env.options.maxCallDepth m.activations := by
  refine h.activations ⟨Nat.le_add_left _ _, ?_⟩ fun _ _ moves shallow => moves.shallow shallow
  intro act hact
  rw [List.mem_singleton.mp hact]
  exact Nat.zero_le _

/-- What holds of a machine if it holds of those that are cheaper, holds in every run. The machines
have to be those of a run, because only these have lists of bounded length. -/
theorem cheaper_induction {P : Machine σ → Prop}
    (step : ∀ m, Reachable env m →
      (∀ m', Reachable env m' →
        Cheaper (m'.levels env.program) (m.levels env.program) → P m') → P m)
    (h : Reachable env m) : P m := by
  let bound := (env.options.maxCallDepth + 1) * (env.options.maxCallDepth + 1)
  have hbound : ∀ m : Machine σ, Reachable env m →
      (m.levels env.program).length ≤ bound := by
    intro m h
    have hshallow := h.shallow
    exact Nat.le_trans (hshallow.length_listLevels_le _ _) (Nat.mul_le_mul_right _ hshallow.units)
  have hacc := Cheaper.accessible bound (m.levels env.program) (hbound m h)
  generalize hl : m.levels env.program = l at hacc
  induction hacc generalizing m with
  | intro l _ ih =>
    refine step m h fun m' h' hcheaper => ?_
    exact ih _ ⟨hbound m' h', hl ▸ hcheaper⟩ h' rfl

/-- Where no unit is left, a micro-step shows it. -/
theorem Ticked.of_nothing {r : Tick × Machine σ} (h : Ticked env m r)
    (nothing : m.activations = []) :
    r.1 = .defect ∨ r.1 = .done ∨ ∃ f, r.1 = .failed f := by
  cases h with
  | astray => exact .inl rfl
  | cancelled line => exact .inr (.inr ⟨_, rfl⟩)
  | idle => exact .inr (.inl rfl)
  | ended => exact .inr (.inl rfl)
  | @unwind failure pending =>
    unfold Machine.unwind
    rw [nothing]
    split <;> exact .inr (.inr ⟨failure, rfl⟩)
  | back going front | moved going same frames front | ran going front | stopped going front =>
    rw [nothing] at front
    cases front

theorem ticks_end (linked : env.program.Linked) (straight : env.program.isStraight = true)
    (h : Reachable env m) : ∃ n, (m.ticks env n).activations = [] := by
  refine cheaper_induction (P := fun m => ∃ n, (m.ticks env n).activations = [])
    (fun m h ih => ?_) h
  by_cases nothing : m.activations = []
  · exact ⟨0, nothing⟩
  obtain ⟨books, audited⟩ := h.audited
  obtain ⟨n, hn⟩ := ih _ h.tick (tick_cheaper linked straight audited nothing)
  exact ⟨n + 1, hn⟩

/-- Steps come to a machine that is finished. A step may take many micro-steps, so the induction is
on those, and each of them either is inside of a step or ends one. -/
theorem run_ends (linked : env.program.Linked) (straight : env.program.isStraight = true)
    (h : Reachable env m) :
    ∃ rs e m', RunsTo env m rs e m' ∧ m'.finished = true := by
  refine cheaper_induction (P := fun m => ∃ rs e m', RunsTo env m rs e m' ∧ m'.finished = true)
    (fun m h ih => ?_) h
  cases hfinished : m.finished with
  | true => exact ⟨[], .ended, m, .ended (.finished hfinished), hfinished⟩
  | false =>
    obtain ⟨books, audited⟩ := h.audited
    have sound := tick_ne_defect linked audited.placed
    have hnothing := (tick_ticked env m).of_nothing
    have hcheaper := tick_cheaper linked straight audited
    have hreach : Reachable env (m.tick env).2 := h.tick
    rcases htick : m.tick env with ⟨outcome, m₁⟩
    rw [htick] at sound hnothing hcheaper hreach
    cases outcome with
    | defect => exact absurd rfl sound
    | done => exact ⟨[], .ended, _, .ended (.ended hfinished htick), rfl⟩
    | failed f => exact ⟨[], .failed f, _, .failed (.failed hfinished htick), rfl⟩
    | running =>
      have left : m.activations ≠ [] := fun nothing => by simpa using hnothing nothing
      obtain ⟨rs, e, m', hruns, hm'⟩ := ih m₁ hreach (hcheaper left)
      exact ⟨rs, e, m', hruns.running hfinished htick, hm'⟩
    | record r =>
      have left : m.activations ≠ [] := fun nothing => by simpa using hnothing nothing
      -- the flag that is set behind a record has no price
      obtain ⟨rs, e, m', hruns, hm'⟩ := ih m₁.settled (hreach.finish _) (hcheaper left)
      exact ⟨r :: rs, e, m', .record (.record hfinished htick) hruns, hm'⟩

theorem RunsTo.returned {rs : List StepRecord} {e : RunEnd} (h : RunsTo env m rs e m') :
    ∃ s m₁, s.Returned ∧ StepsTo env m s m₁ := by
  cases h with
  | ended h => exact ⟨_, _, .ended, h⟩
  | failed h => exact ⟨_, _, .failed _, h⟩
  | record h rest => exact ⟨_, _, .record _, h⟩

/-- **A program without loops and jumps ends.** Whatever has happened to its machine before, there
is a number of micro-steps behind which no unit is left, the next step comes back, and running comes
to a machine that is finished. -/
theorem straight_runs_end (hprogram : env.program = Program.link script)
    (straight : env.program.isStraight = true)
    (h : Reachable env m) :
    (∃ n, (m.ticks env n).activations = []) ∧
      (∃ s m₁, s.Returned ∧ StepsTo env m s m₁) ∧ ∃ rs e m', RunsTo env m rs e m' ∧
        m'.finished = true := by
  have linked : env.program.Linked := hprogram ▸ Program.linked_link script
  obtain ⟨rs, e, m', hruns, hfinished⟩ := run_ends linked straight h
  exact ⟨ticks_end linked straight h, hruns.returned, rs, e, m', hruns, hfinished⟩

end

/-- A function that calls itself in its own argument, in a retry, and a subroutine that enters
itself. -/
def selfish : Block :=
  .mk
    [.function "f" ["p"] (.mk [.ret (some (.call "f" [.call "f" [.var "p" 2] 2] 2)) 2] 1 3) 1,
      .tryCatch (.mk [.retry (.num 2.0 5) (.mk [.call "f" [.null 6] 6] 5 7) none 5] 4 8) none
        (.mk [.noop 9] 8 10) 4,
      .label "again" 11,
      .gosub "again" 12]
    0 13

/-- The calls come to the greatest depth in both attempts, and so do the subroutines behind them. -/
theorem straight_runs_end_selfish :
    let env : Setting Unit := ⟨Program.link selfish, ⟨1.0, false, 3⟩, .null ""⟩
    let start : Machine Unit := Machine.new ⟨[], [], []⟩ ()
    env.program.isStraight = true ∧ (start.ticks env 7).activations.length = 4 ∧
    (start.ticks env 12).activations.length = 4 ∧
    (start.ticks env 21).activations.map (fun act => act.subroutines.length) = [3] ∧
    (∃ n, (start.ticks env n).activations = []) ∧
      (∃ s m₁, s.Returned ∧ StepsTo env start s m₁) ∧
      ∃ rs e m', RunsTo env start rs e m' ∧ m'.finished = true := by
  intro env start
  have hstraight : env.program.isStraight = true := by decide +kernel
  have hfirst : (start.ticks env 7).activations.length = 4 := by decide +kernel
  have hsecond : (start.ticks env 12).activations.length = 4 := by decide +kernel
  have hsubroutines : (start.ticks env 21).activations.map (fun act => act.subroutines.length) =
      [3] := by
    decide +kernel
  have hprogram : env.program = Program.link selfish := rfl
  clear_value env
  exact ⟨hstraight, hfirst, hsecond, hsubroutines,
    straight_runs_end hprogram hstraight (.new _ _)⟩

end Machine

end Stepwise
