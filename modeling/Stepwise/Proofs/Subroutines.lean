import Stepwise.Proofs.Nesting
import Stepwise.Proofs.Provenance
import Stepwise.Proofs.Ticked

/-!
# Subroutines

A call of a subroutine puts the stack of its unit aside, and a return takes back the one that was
put aside last. How many are aside says which calls are open: a call is, from the moment at which it
was made, as long as there are more stacks aside than there were before it. A stack that is aside
does not change, so **a return goes on exactly behind the latest call of its unit that is still
open** (`return_resumes_behind_call`), whatever was jumped to, called, retried and caught in
between.

## Counting brackets

Calls and returns are brackets, but a run need not close what it opens: a fault leaves any number of
calls at once, and the end of a function leaves those that are open in it. So the bracket that
belongs to a return is not found by matching words of a grammar. It is found by counting. `openSubs`
is the number of stacks aside in the unit that has `d` callers, and the call that put the `k`-th of
them there was made at the last moment at which there were no more than `k` of them (`exists_call`).

The unit is given by the number of its callers, since it has no name: a function that calls itself
has many activations at a time. While that number of units is there, the callers under it do not
change (`Proofs/Nesting`), so it is the same activation all along.

## Layout

`Brackets` lists what a micro-step can do to the stacks aside, read off the list of `Proofs/Ticked`.
The section on counting turns each of its cases into an equation for `openSubs`, and the next one
turns those around: only a call raises the count, and only a return or a fault lowers it in a unit
that stays. The last section follows a whole run, given as the sequence of its moments.
-/

namespace Stepwise

open Activation

namespace Machine

variable {σ : Type} {env : Setting σ} {m m' : Machine σ} {u : CodeUnit} {path : BlockPath}
  {next : Nat} {below : List Frame} {aside : List Frame} {older subroutines : List (List Frame)}
  {saved : List (String × Option Value)} {inner callers : List Activation} {act : Activation}

/-! ## Stacks that are aside

`asides` forgets everything of a machine but the stacks that are put aside, unit by unit. Most of
what a micro-step does is to the stack in front, and leaves it alone. -/

/-- The stacks that each unit has put aside, the unit in front first, and of each unit the latest
stack first. -/
def asides (m : Machine σ) : List (List (List Frame)) := m.activations.map Activation.subroutines

/-- How many subroutines are open in the unit that has this many callers; none if there is no such
unit. Counting from the outermost unit keeps the number of a unit fixed while others come and go in
front of it. -/
def openSubs (m : Machine σ) (d : Nat) : Nat := (m.asides.reverse[d]?.getD []).length

theorem openSubs_eq (h : m.activations = inner ++ act :: callers) :
    m.openSubs callers.length = act.subroutines.length := by
  have hreverse : m.asides.reverse =
      (callers.map Activation.subroutines).reverse ++
        (act.subroutines :: (inner.map Activation.subroutines).reverse) := by
    simp [asides, h]
  have hlength : callers.length = (callers.map Activation.subroutines).reverse.length := by simp
  rw [openSubs, hreverse, hlength, List.getElem?_append_right (Nat.le_refl _), Nat.sub_self]
  rfl

/-- Where subroutines are open, there is a unit: the count is not that of a list that is too
short. -/
theorem exists_unit_of_openSubs {d : Nat} (h : 0 < m.openSubs d) :
    ∃ inner act callers, m.activations = inner ++ act :: callers ∧ callers.length = d := by
  have hd : d < m.activations.length := by
    by_cases hd : d < m.activations.length
    · exact hd
    · have hnone : m.asides.reverse[d]? = none := by
        simpa [asides] using hd
      simp [openSubs, hnone] at h
  have hsplit := List.take_append_drop (m.activations.length - (d + 1)) m.activations
  rcases hdrop : m.activations.drop (m.activations.length - (d + 1)) with _ | ⟨act, callers⟩
  · have := congrArg List.length hdrop
    simp only [List.length_drop, List.length_nil] at this
    omega
  · have hlength := congrArg List.length hdrop
    simp only [List.length_drop, List.length_cons] at hlength
    exact ⟨_, act, callers, by rw [← hdrop, hsplit], by omega⟩

theorem asides_mapFrame (f : Frame → Frame) (acts : List Activation) :
    (Activation.mapFrame f acts).map Activation.subroutines = acts.map Activation.subroutines := by
  unfold Activation.mapFrame
  split <;> rfl

theorem asides_withFrames (m : Machine σ) (frames : List Frame) :
    (m.withFrames frames).asides = m.asides := by
  unfold withFrames mapTop asides
  split <;> simp_all

theorem asides_raise (m : Machine σ) (line : Line) (fault : Fault) :
    (m.raise line fault).asides = m.asides := by
  rw [asides, raise_activations, asides_mapFrame, asides]

/-- Leaving a function drops the stacks that it has put aside with it. Nobody takes them back. -/
theorem asides_returnFromFunction (h : m.activations = act :: callers) (v : Value) :
    m.asides = act.subroutines :: (m.returnFromFunction v).asides := by
  rw [asides, asides, returnFromFunction_activations h, asides_mapFrame, h, List.map_cons]

theorem asides_callFunction (env : Setting σ) (m : Machine σ) (line : Line) (name : String)
    (args : List Value) :
    (m.callFunction env line name args).asides = m.asides ∨
      (m.callFunction env line name args).asides = [] :: m.asides := by
  unfold callFunction
  split
  · exact .inl (asides_raise _ _ _)
  split
  · exact .inl (asides_raise _ _ _)
  split
  · exact .inl (asides_raise _ _ _)
  split
  · exact .inl (asides_raise _ _ _)
  · exact .inr rfl

theorem recorded_fst (env : Setting σ) (m : Machine σ) (line : Line) (value : Option Value) :
    (m.recorded env line value).1 = .defect ∨
      ∃ r, (m.recorded env line value).1 = .record r := by
  unfold recorded
  split
  · exact .inr ⟨_, rfl⟩
  · exact .inl rfl

/-! ## Micro-steps

The cases of `Brackets` are coarser than those of a micro-step: what does nothing to the stacks
aside is one case. A call and a return keep the statement that they come from, since the theorem is
about places in a script and not about stacks. -/

/-- What a micro-step does to the stacks that are aside: nothing, a unit more or less, all gone, one
stack more by a call, one less by a return, or what the search for a handler leaves. The last case
only names the search, of which `openSubs_unwind_le` says all that is needed. -/
inductive Brackets (env : Setting σ) (m : Machine σ) (r : Tick × Machine σ) : Prop where
  | level (same : r.2.asides = m.asides)
  | entered (more : r.2.asides = [] :: m.asides)
  | left {aside : List (List Frame)} (fewer : m.asides = aside :: r.2.asides)
  | emptied (none : r.2.activations = [])
  | called {u : CodeUnit} {path : BlockPath} {next : Nat} {replay replay' : List Value}
      {below frames : List Frame} {subroutines : List (List Frame)}
      {saved : List (String × Option Value)} {callers : List Activation} {label : String}
      {line : Line}
      (front : m.activations =
        ⟨u, ⟨.block path next, replay⟩ :: below, subroutines, saved⟩ :: callers)
      (stmt : env.program.stmt? u ⟨path, next⟩ = some (.gosub label line))
      (shown : r.1 = .defect ∨ ∃ record, r.1 = .record record)
      (after : r.2.activations =
        ⟨u, frames, (⟨.block path (next + 1), replay'⟩ :: below) :: subroutines,
          saved⟩ :: callers)
  | returned {u : CodeUnit} {path : BlockPath} {next : Nat} {replay : List Value}
      {below aside : List Frame} {older : List (List Frame)} {saved : List (String × Option Value)}
      {callers : List Activation} {value : Option Expr} {line : Line}
      (front : m.activations =
        ⟨u, ⟨.block path next, replay⟩ :: below, aside :: older, saved⟩ :: callers)
      (stmt : env.program.stmt? u ⟨path, next⟩ = some (.ret value line))
      (after : r.2.activations = ⟨u, aside, older, saved⟩ :: callers)
  | unwound {failure : Failure} (pending : m.pending = some failure)
      (tick : r = m.unwind env failure)

section

variable {replay replay' : List Value} {stmt : Stmt} {store : Store σ}

/-- A statement that is done, and that has been passed: `m₁` is the machine behind it. What it
asks for decides the case. -/
theorem apply_brackets {m₁ : Machine σ} {effect : Effect}
    (front : m.activations =
      ⟨u, ⟨.block path next, replay⟩ :: below, subroutines, saved⟩ :: callers)
    (hstmt : env.program.stmt? u ⟨path, next⟩ = some stmt) (yields : stmt.Yields effect)
    (passed : m₁.activations =
      ⟨u, ⟨.block path (next + 1), replay'⟩ :: below, subroutines, saved⟩ :: callers) :
    Brackets env m (m₁.apply env stmt.line effect) := by
  have hsame : m₁.asides = m.asides := by
    simp only [asides, passed, front, List.map_cons]
  cases yields with
  | value plain v => exact .level (by rw [apply, recorded_snd, hsame])
  | delay duration line ns v => exact .level (by rw [apply, recorded_snd, ← hsame]; rfl)
  | suspend line => exact .level (by rw [apply, recorded_snd, ← hsame]; rfl)
  | exit value line v => exact .emptied (by rw [apply, recorded_snd, terminate])
  | jump label line =>
    refine .level ?_
    obtain ⟨hjump, -⟩ | ⟨hjump, -⟩ | ⟨-, -, frames', hjump, -⟩ :=
      jump_cases env passed label
    · simp only [apply, hjump, hsame]
    · simp only [apply, hjump, asides_raise, hsame]
    · simp only [apply, hjump, recorded_snd, asides_withFrames, hsame]
  | sub label line =>
    obtain ⟨hgosub, -⟩ | ⟨fault, hgosub⟩ | ⟨-, -, frames', m', hgosub, -, -, -,
      -, hm'⟩ :=
      gosub_cases env passed label
    · exact .level (by simp only [apply, hgosub, hsame])
    · exact .level (by simp only [apply, hgosub, asides_raise, hsame])
    · simp only [apply, hgosub]
      exact .called front hstmt (recorded_fst env m' _ none) (by rw [recorded_snd, hm'])
  -- what a return does depends on what is aside, and then on the unit
  | ret value line v =>
    simp only [apply]
    cases subroutines with
    | cons aside older =>
      refine .returned front hstmt ?_
      simp only [recorded_snd, ret, passed, mapTop]
    | nil =>
      cases u with
      | main => exact .emptied (by simp only [recorded_snd, ret, passed, terminate])
      | function name =>
        have hleft : m.asides = [] :: (m₁.returnFromFunction (v.getD .null)).asides :=
          hsame.symm.trans (asides_returnFromFunction passed _)
        have hret : m₁.ret v = m₁.returnFromFunction (v.getD .null) := by
          simp only [ret, passed]
        rw [← hret] at hleft
        exact .left (by rw [recorded_snd]; exact hleft)

end

theorem Ticked.brackets {r : Tick × Machine σ} (h : Ticked env m r) : Brackets env m r := by
  cases h with
  | astray => exact .level rfl
  | cancelled => exact .emptied rfl
  | unwind pending => exact .unwound pending rfl
  | idle => exact .level rfl
  | ended => exact .emptied rfl
  | back going front => exact .left (asides_returnFromFunction front _)
  | moved going same frames => exact .level (asides_withFrames _ frames)
  -- the frame has passed the statement before its effect is applied
  | @ran _ _ _ _ _ _ _ _ _ e _ going front hstmt hexec hresult =>
    exact apply_brackets front hstmt (Stmt.yields_of_execute hexec hresult)
      (withFrames_activations (m := { m with store := e.store }) front _)
  | @stopped _ _ _ _ _ _ _ _ store line i going front stops =>
    have hsame : ∀ frames, ({ m with store }.withFrames frames).asides = m.asides := fun frames =>
      asides_withFrames _ frames
    cases i with
    | fault f => exact .level ((asides_raise _ _ _).trans (hsame _))
    | call name args =>
      obtain hlevel | hmore :=
        asides_callFunction env ({ m with store }.withFrames _) line name args
      · exact .level (hlevel.trans (hsame _))
      · exact .entered (hmore.trans (by rw [hsame]))

/-! ## Counting

Each case of `Brackets` as an equation for the count, at every unit and not only at the one in
front: the unit that a return is in may be far below the one that runs in the meantime. -/

section

variable {rest : List (List (List Frame))} {front : List (List (List Frame))}
  {a : List (List Frame)}

theorem openSubs_append (h : m.asides = front ++ a :: rest) {d : Nat} (hd : d < rest.length) :
    m.openSubs d = (rest.reverse[d]?.getD []).length := by
  have hreverse : m.asides.reverse = rest.reverse ++ (a :: front.reverse) := by
    simp [h]
  rw [openSubs, hreverse, List.getElem?_append_left (by simpa using hd)]

/-- The count splits at the unit in front, which has as many callers as there are units under it. -/
theorem openSubs_cons (h : m.asides = a :: rest) (d : Nat) :
    m.openSubs d = if d = rest.length then a.length else (rest.reverse[d]?.getD []).length := by
  rw [openSubs, h, List.reverse_cons, List.getElem?_append]
  by_cases hd : d < rest.length
  · rw [if_pos (by simpa using hd), if_neg (by omega)]
  · rw [if_neg (by simpa using hd)]
    by_cases heq : d = rest.length
    · simp [heq]
    · have hout : rest.length ≤ d := by omega
      have hzero : d - rest.length ≠ 0 := by omega
      simp [heq, hout, hzero]

end

theorem openSubs_nil (h : m.activations = []) (d : Nat) : m.openSubs d = 0 := by
  simp [openSubs, asides, h]

/-- Entering a function opens no subroutine. At its own place the count was zero for want of a unit,
and is zero now because nothing is aside. -/
theorem openSubs_entered (h : m'.asides = [] :: m.asides) (d : Nat) :
    m'.openSubs d = m.openSubs d := by
  rw [openSubs_cons h]
  by_cases hd : d = m.asides.length
  · rw [if_pos hd, openSubs, hd]
    simp
  · rw [if_neg hd, openSubs]

/-- Leaving a function closes its subroutines and no others. Where the unit was, the count is zero
for want of one. -/
theorem openSubs_left {a : List (List Frame)} (h : m.asides = a :: m'.asides) (d : Nat) :
    m'.openSubs d = if d < m'.activations.length then m.openSubs d else 0 := by
  have hlength : m'.asides.length = m'.activations.length := List.length_map _
  rw [openSubs_cons h]
  by_cases hd : d < m'.activations.length
  · rw [if_pos hd, if_neg (by omega), openSubs]
  · rw [if_neg hd, openSubs, List.getElem?_eq_none (by simp; omega)]
    rfl

/-- A fault opens no subroutine. It may close many: the stacks from the latest up to that with the
handler, and all those of the functions that are left. -/
theorem openSubs_unwind_le (env : Setting σ) (m : Machine σ) (failure : Failure) (d : Nat) :
    (m.unwind env failure).2.openSubs d ≤ m.openSubs d := by
  obtain hnone | hsame | ⟨c, frames, hfind, hacts⟩ := unwind_activations env m failure
  · rw [openSubs_nil hnone]
    exact Nat.zero_le _
  · exact Nat.le_of_eq (by rw [hsame])
  · obtain ⟨inner, act, hsplit, -, -, haside⟩ := caught_split hfind
    have hafter : (m.unwind env failure).2.asides =
        c.activation.subroutines :: c.callers.map Activation.subroutines := by
      rw [asides, hacts, List.map_cons]
    have hbefore : m.asides = inner.map Activation.subroutines ++
        act.subroutines :: c.callers.map Activation.subroutines := by
      rw [asides, hsplit, List.map_append, List.map_cons]
    rw [openSubs_cons hafter, List.length_map]
    by_cases heq : d = c.callers.length
    · subst heq
      rw [if_pos rfl, openSubs_eq hsplit]
      exact haside.length_le
    · rw [if_neg heq]
      by_cases hd : d < c.callers.length
      · exact Nat.le_of_eq (openSubs_append hbefore (by simpa using hd)).symm
      · rw [List.getElem?_eq_none (by simp; omega)]
        exact Nat.zero_le _

/-- In the front unit the count is that of its stacks, elsewhere it is that of the callers. -/
theorem openSubs_front (h : m.activations = act :: callers) (d : Nat) :
    m.openSubs d = if d = callers.length then act.subroutines.length
      else ((callers.map Activation.subroutines).reverse[d]?.getD []).length := by
  have hasides : m.asides = act.subroutines :: callers.map Activation.subroutines := by
    rw [asides, h, List.map_cons]
  rw [openSubs_cons hasides, List.length_map]

/-! ## Calls and returns

The equations turned around. If the count at a unit has changed, the micro-step was of one of a few
kinds, and the statement that was in front is known. -/

/-- The micro-step of `m` calls a subroutine: the statement in front is a call, and it is done. The
indices are what has to be found again at the return: the place of the call, the frames under it,
the stacks that were aside before, and the unit. -/
structure Gosubs (env : Setting σ) (m : Machine σ) (u : CodeUnit) (path : BlockPath) (next : Nat)
    (below : List Frame) (older : List (List Frame)) (saved : List (String × Option Value))
    (callers : List Activation) : Prop where
  front : ∃ replay, m.activations =
    ⟨u, ⟨.block path next, replay⟩ :: below, older, saved⟩ :: callers
  stmt : ∃ label line, env.program.stmt? u ⟨path, next⟩ = some (.gosub label line)
  done : ∃ record, (m.tick env).1 = .record record

/-- What closes subroutines of a unit that stays: a return in the unit, or a fault that looks for a
handler. The end of the unit itself is no case, since the unit does not stay. -/
inductive Closes (env : Setting σ) (m : Machine σ) (d : Nat) : Prop where
  | returned {u : CodeUnit} {path : BlockPath} {next : Nat} {replay : List Value}
      {below aside : List Frame}
      {older : List (List Frame)} {saved : List (String × Option Value)}
      {callers : List Activation} {value : Option Expr} {line : Line}
      (front : m.activations =
        ⟨u, ⟨.block path next, replay⟩ :: below, aside :: older, saved⟩ :: callers)
      (unit : callers.length = d)
      (stmt : env.program.stmt? u ⟨path, next⟩ = some (.ret value line))
  | unwound {failure : Failure} (pending : m.pending = some failure)

/-- **Only a call opens a subroutine**, and it opens one. The call is in the unit at which the count
has risen, and the machine behind it has the stack of the call aside. -/
theorem gosubs_of_openSubs_lt (sound : (m.tick env).1 ≠ .defect) {d : Nat}
    (grows : m.openSubs d < (m.tick env).2.openSubs d) :
    ∃ u path next below older saved callers frames replay,
      Gosubs env m u path next below older saved callers ∧ callers.length = d ∧
      (m.tick env).2.activations =
        ⟨u, frames, (⟨.block path (next + 1), replay⟩ :: below) :: older, saved⟩ ::
          callers := by
  cases (tick_ticked env m).brackets with
  | level same =>
    rw [openSubs, openSubs, same] at grows
    omega
  | entered more =>
    rw [openSubs_entered more] at grows
    omega
  -- the unit that is gone counts nothing, and the others count what they did
  | left fewer =>
    rw [openSubs_left fewer] at grows
    split at grows <;> omega
  | emptied none =>
    rw [openSubs_nil none] at grows
    omega
  -- the count of every other unit is as before, so it is this one
  | called front stmt shown after =>
    refine ⟨_, _, _, _, _, _, _, _, _, ⟨⟨_, front⟩, ⟨_, _, stmt⟩, ?_⟩, ?_, after⟩
    · exact shown.resolve_left sound
    · rw [openSubs_front front, openSubs_front after] at grows
      split at grows
      · rename_i heq
        exact heq.symm
      · omega
  | returned front stmt after =>
    rw [openSubs_front front, openSubs_front after] at grows
    split at grows
    · simp only [List.length_cons] at grows
      omega
    · omega
  | @unwound failure pending htick =>
    have hle := openSubs_unwind_le env m failure d
    rw [htick] at grows
    exact absurd grows (Nat.not_lt.mpr hle)

/-- A call puts the stack behind it aside: the frame in front has passed the call, and what the
label needs is built anew. -/
theorem Gosubs.tick (h : Gosubs env m u path next below older saved callers) :
    ∃ frames replay, (m.tick env).2.activations =
      ⟨u, frames, (⟨.block path (next + 1), replay⟩ :: below) :: older, saved⟩ ::
        callers := by
  obtain ⟨replay, front⟩ := h.front
  obtain ⟨label, line, hstmt⟩ := h.stmt
  obtain ⟨record, hrecord⟩ := h.done
  obtain ⟨e, effect, yields, htick⟩ := (tick_ticked env m).of_record hrecord front hstmt
  have passed := withFrames_activations (m := { m with store := e.store }) front
    (⟨.block path (next + 1), e.replay⟩ :: below)
  cases yields with
  | value plain => cases plain
  | sub =>
    rw [htick] at hrecord ⊢
    obtain ⟨hgosub, -⟩ | ⟨fault, hgosub⟩ | ⟨-, -, frames, m', hgosub, -, -, -,
      -, hm'⟩ :=
      gosub_cases env passed label
    -- a call that has lost its place, or that is refused, shows no record
    · simp only [apply, hgosub] at hrecord
      cases hrecord
    · simp only [apply, hgosub] at hrecord
      cases hrecord
    · exact ⟨frames, e.replay, by simp only [apply, hgosub, recorded_snd, hm']⟩

theorem Gosubs.openSubs_tick (h : Gosubs env m u path next below older saved callers) :
    (m.tick env).2.openSubs callers.length = m.openSubs callers.length + 1 := by
  obtain ⟨replay, front⟩ := h.front
  obtain ⟨frames, replay', after⟩ := h.tick
  rw [openSubs_front front, openSubs_front after, if_pos rfl, if_pos rfl, List.length_cons]

/-- A unit that stays has fewer subroutines open only behind a return or a fault. -/
theorem closes_of_openSubs_lt {d : Nat} (stays : d < (m.tick env).2.activations.length)
    (falls : (m.tick env).2.openSubs d < m.openSubs d) : Closes env m d := by
  cases (tick_ticked env m).brackets with
  | level same =>
    rw [openSubs, openSubs, same] at falls
    omega
  | entered more =>
    rw [openSubs_entered more] at falls
    omega
  | left fewer =>
    rw [openSubs_left fewer, if_pos stays] at falls
    omega
  | emptied none =>
    rw [none] at stays
    exact absurd stays (Nat.not_lt_zero d)
  | called front stmt shown after =>
    rw [openSubs_front front, openSubs_front after] at falls
    split at falls
    · simp only [List.length_cons] at falls
      omega
    · omega
  -- the count of every other unit is as before, so it is this one
  | returned front stmt after =>
    rw [openSubs_front front, openSubs_front after] at falls
    split at falls
    · rename_i heq
      exact .returned front heq.symm stmt
    · omega
  | unwound pending htick => exact .unwound pending

/-- A return that is done takes back the stack that was put aside last, and shows where that goes
on. -/
theorem tick_ret {path' : BlockPath} {next' : Nat} {replay : List Value} {below' : List Frame}
    {value : Option Expr} {line : Line} {record : StepRecord}
    (front : m.activations =
      ⟨u, ⟨.block path' next', replay⟩ :: below', aside :: older, saved⟩ :: callers)
    (hstmt : env.program.stmt? u ⟨path', next'⟩ = some (.ret value line))
    (done : (m.tick env).1 = .record record) :
    (m.tick env).2.activations = ⟨u, aside, older, saved⟩ :: callers ∧ record.line = line ∧
      (m.tick env).2.nextLine? env = some record.nextLine := by
  obtain ⟨e, effect, yields, htick⟩ := (tick_ticked env m).of_record done front hstmt
  have passed := withFrames_activations (m := { m with store := e.store }) front
    (⟨.block path' (next' + 1), e.replay⟩ :: below')
  cases yields with
  | value plain => cases plain
  | ret value line v =>
    rw [htick, apply, recorded] at done
    rw [htick, apply, recorded_snd]
    split at done
    · rename_i nextLine hnext
      cases done
      exact ⟨by simp only [ret, passed, mapTop], rfl, hnext⟩
    · cases done

/-! ## Histories

A run is looked at as the sequence of its machines, so that "the latest call" and "still open" can
be said with moments. Nothing here is about one micro-step any more: the count is a number at each
moment, and the call that belongs to a return is where it last crossed a value. -/

/-- The moments of a run up to the one at `n`. A moment comes from the one before by anything that
can happen to a machine, also from outside. -/
structure History (env : Setting σ) (h : Nat → Machine σ) (n : Nat) : Prop where
  start : ∃ scope world, h 0 = Machine.new scope world
  acts : ∀ i, i < n → Acts env (h i) (h (i + 1))

/-- A call at the moment `j` is open up to the moment `t`: at no moment behind it were there as few
stacks aside in its unit as before it. -/
def OpenTill (h : Nat → Machine σ) (d j t : Nat) : Prop :=
  ∀ s, j < s → s ≤ t → (h j).openSubs d < (h s).openSubs d

/-- At the moment `i` the unit with these callers calls a subroutine, and at `n` this is the latest
call that is open. -/
structure LatestOpen (env : Setting σ) (h : Nat → Machine σ) (n i : Nat) (u : CodeUnit)
    (path : BlockPath) (next : Nat) (below : List Frame) (older : List (List Frame))
    (saved : List (String × Option Value)) (callers : List Activation) : Prop where
  before : i < n
  call : Gosubs env (h i) u path next below older saved callers
  made : h (i + 1) = ((h i).tick env).2
  /-- The unit is there all the time. -/
  stays : ∀ t, i < t → t ≤ n →
    ∃ inner act, (h t).activations = inner ++ act :: callers ∧ act.unit = u ∧
    act.saved = saved
  opened : OpenTill h callers.length i n
  /-- Later calls of the unit were returned from, or a fault has left them. -/
  latest : ∀ j u' path' next' below' older' saved' callers', i < j → j < n →
    Gosubs env (h j) u' path' next' below' older' saved' callers' →
    callers'.length = callers.length →
    h (j + 1) = ((h j).tick env).2 →
    ∃ t, j < t ∧ t < n ∧ OpenTill h callers.length j t ∧ Closes env (h t) callers.length ∧
      h (t + 1) = ((h t).tick env).2 ∧
      (h (t + 1)).openSubs callers.length ≤ (h j).openSubs callers.length

/-- A property that does not hold at first and holds now came to hold at some moment for good. -/
theorem exists_last_not {P : Nat → Prop} {n : Nat} (start : ¬ P 0) (holds : P n) :
    ∃ i, i < n ∧ ¬ P i ∧ ∀ t, i < t → t ≤ n → P t := by
  induction n with
  | zero => exact absurd holds start
  | succ n ih =>
    by_cases hn : P n
    · obtain ⟨i, hi, hnot, hall⟩ := ih hn
      refine ⟨i, by omega, hnot, fun t hit htn => ?_⟩
      by_cases ht : t = n + 1
      · exact ht ▸ holds
      · exact hall t hit (by omega)
    · refine ⟨n, by omega, hn, fun t hnt htn => ?_⟩
      obtain rfl : t = n + 1 := by omega
      exact holds

/-- A property that holds at first and does not hold now was lost at some moment for the first
time. -/
theorem exists_first_not {P : Nat → Prop} {j n : Nat} (first : P (j + 1)) (less : j < n)
    (fails : ¬ P n) :
    ∃ t, j < t ∧ t < n ∧ (∀ s, j < s → s ≤ t → P s) ∧ ¬ P (t + 1) := by
  induction n using Nat.strongRecOn with
  | ind n ih =>
    by_cases hfails : ∃ s, j < s ∧ s < n ∧ ¬ P s
    · obtain ⟨s, hjs, hsn, hnot⟩ := hfails
      obtain ⟨t, hjt, hts, hall, ht⟩ := ih s hsn hjs hnot
      exact ⟨t, hjt, by omega, hall, ht⟩
    · have hall : ∀ s, j < s → s < n → P s := fun s hjs hsn =>
        Classical.byContradiction fun hnot => hfails ⟨s, hjs, hsn, hnot⟩
      have hn : n ≠ j + 1 := by
        rintro rfl
        exact fails first
      obtain ⟨t, rfl⟩ : ∃ t, n = t + 1 := ⟨n - 1, by omega⟩
      exact ⟨t, by omega, by omega, fun s hjs hst => hall s hjs (by omega), fails⟩

theorem openSubs_new (scope : Scope) (world : σ) (d : Nat) :
    (Machine.new scope world).openSubs d = 0 := by
  have hacts : (Machine.new scope world).activations = [Activation.new .main []] := rfl
  rw [openSubs_front hacts]
  split <;> simp [Activation.new]

theorem openSubs_congr (h : m'.activations = m.activations) (d : Nat) :
    m'.openSubs d = m.openSubs d := by
  rw [openSubs, openSubs, asides, asides, h]

/-- A stack stays aside as long as its call is open. The stacks under a unit are changed at one end
only, so the ones that are old enough are the same ones. -/
theorem Acts.keeps_aside (hact : Acts env m m') {newer : List (List Frame)}
    (h : m.activations = inner ++ act :: callers)
    (haside : act.subroutines = newer ++ aside :: older)
    (still : older.length < m'.openSubs callers.length) :
    ∃ inner' act' newer', m'.activations = inner' ++ act' :: callers ∧ act'.unit = act.unit ∧
      act'.saved = act.saved ∧ act'.subroutines = newer' ++ aside :: older := by
  obtain ⟨inner₁, act₁, callers₁, h₁, hlength₁⟩ :=
    exists_unit_of_openSubs (Nat.lt_of_le_of_lt (Nat.zero_le _) still)
  have stays : callers.length < m'.activations.length := by
    rw [h₁, List.length_append, List.length_cons]
    omega
  obtain ⟨inner', act', hacts, halters, -⟩ := hact.activations_moves.keeps h stays
  rw [openSubs_eq hacts] at still
  refine ⟨inner', act', ?_⟩
  rcases halters.aside with hfewer | ⟨stack, hmore⟩
  · -- both are ends of the same list, and the one with the stack is the shorter
    have hend : aside :: older <:+ act.subroutines := haside ▸ List.suffix_append _ _
    obtain ⟨newer', hnewer⟩ := List.suffix_of_suffix_length_le hend hfewer still
    exact ⟨newer', hacts, halters.unit, halters.saved, hnewer.symm⟩
  · refine ⟨stack :: newer, hacts, halters.unit, halters.saved, ?_⟩
    rw [hmore, haside, List.cons_append]

namespace History

variable {h : Nat → Machine σ} {n : Nat}

/-- A stack stays aside through all the moments at which its call is open. -/
theorem keeps_aside (hist : History env h n) {start : Nat} {newer : List (List Frame)}
    (hacts : (h start).activations = inner ++ act :: callers)
    (haside : act.subroutines = newer ++ aside :: older)
    (still : ∀ t, start ≤ t → t ≤ n → older.length < (h t).openSubs callers.length)
    {t : Nat} (hfrom : start ≤ t) (hto : t ≤ n) :
    ∃ inner' act' newer', (h t).activations = inner' ++ act' :: callers ∧
      act'.unit = act.unit ∧ act'.saved = act.saved ∧
        act'.subroutines = newer' ++ aside :: older := by
  induction hfrom with
  | refl => exact ⟨inner, act, newer, hacts, rfl, rfl, haside⟩
  | @step t hfrom ih =>
    have hless : t < n := hto
    obtain ⟨inner₁, act₁, newer₁, hacts₁, hunit, hsaved, haside₁⟩ :=
      ih (Nat.le_of_lt hless)
    obtain ⟨inner₂, act₂, newer₂, hacts₂, hunit₂, hsaved₂, haside₂⟩ :=
      (hist.acts t hless).keeps_aside hacts₁ haside₁
        (still (t + 1) (Nat.le_succ_of_le hfrom) hto)
    exact ⟨inner₂, act₂, newer₂, hacts₂, hunit₂.trans hunit, hsaved₂.trans hsaved,
      haside₂⟩

/-- Every moment has books, in the sense of `Proofs/Provenance`; so its stacks stand in their units,
and no micro-step loses its place. -/
theorem audited (hist : History env h n) {t : Nat} (ht : t ≤ n) :
    ∃ books, Audited env (h t) books := by
  induction t with
  | zero =>
    obtain ⟨scope, world, hstart⟩ := hist.start
    exact ⟨_, hstart ▸ Audited.new scope world⟩
  | succ t ih =>
    obtain ⟨books, haudited⟩ := ih (by omega)
    obtain hsame | htick := (hist.acts t (by omega)).cases_activations
    · exact ⟨books, haudited.own hsame⟩
    · exact ⟨_, htick ▸ haudited.tick⟩

/-- A change of the count is a micro-step, not something that was done to the machine from
outside. -/
theorem tick_of_openSubs_ne (hist : History env h n) {t : Nat} (d : Nat) (ht : t < n)
    (hne : (h (t + 1)).openSubs d ≠ (h t).openSubs d) : h (t + 1) = ((h t).tick env).2 :=
  (hist.acts t ht).cases_activations.resolve_left fun hsame => hne (openSubs_congr hsame d)

/-- A call that is not open any more was returned from, or a fault has left it. The moment is the
first one at which the count is back. -/
theorem closed (hist : History env h n) {j d : Nat} (hj : j < n)
    (stays : ∀ t, j < t → t ≤ n → d < (h t).activations.length)
    (opened : (h j).openSubs d < (h (j + 1)).openSubs d)
    (fallen : (h n).openSubs d ≤ (h j).openSubs d) :
    ∃ t, j < t ∧ t < n ∧ OpenTill h d j t ∧ Closes env (h t) d ∧
      h (t + 1) = ((h t).tick env).2 ∧ (h (t + 1)).openSubs d ≤ (h j).openSubs d := by
  obtain ⟨t, hjt, htn, hall, hnot⟩ :=
    exists_first_not (P := fun s => (h j).openSubs d < (h s).openSubs d) opened hj
      (Nat.not_lt.mpr fallen)
  have hopen := hall t hjt (Nat.le_refl t)
  have htick : h (t + 1) = ((h t).tick env).2 := hist.tick_of_openSubs_ne d htn (by omega)
  refine ⟨t, hjt, htn, hall, ?_, htick, Nat.not_lt.mp hnot⟩
  have hstays := stays (t + 1) (by omega) (by omega)
  rw [htick] at hstays hnot
  exact closes_of_openSubs_lt hstays (by omega)

/-- **Every stack that is aside was put there by a call that is open.** The call is at the last
moment at which there were no more stacks aside than there are behind this one. -/
theorem exists_call (linked : env.program.Linked) (hist : History env h n) {d k : Nat}
    (now : k < (h n).openSubs d) :
    ∃ i u path next below older saved callers replay, i < n ∧
      Gosubs env (h i) u path next below older saved callers ∧ callers.length = d ∧
        older.length = k ∧
      h (i + 1) = ((h i).tick env).2 ∧ (h i).openSubs d = k ∧
      (∀ t, i < t → t ≤ n → k < (h t).openSubs d) ∧
      ∀ t, i < t → t ≤ n →
        ∃ inner act newer, (h t).activations = inner ++ act :: callers ∧ act.unit = u ∧
          act.saved = saved ∧
        act.subroutines = newer ++ (⟨.block path (next + 1), replay⟩ :: below) :: older := by
  have hstart : ¬ k < (h 0).openSubs d := by
    obtain ⟨scope, world, h0⟩ := hist.start
    rw [h0, openSubs_new]
    exact Nat.not_lt_zero _
  obtain ⟨i, hin, hclosed, hopen⟩ :=
    exists_last_not (P := fun t => k < (h t).openSubs d) hstart now
  have hbefore : (h i).openSubs d ≤ k := Nat.not_lt.mp hclosed
  have hafter := hopen (i + 1) (by omega) (by omega)
  have hmade : h (i + 1) = ((h i).tick env).2 := hist.tick_of_openSubs_ne d hin (by omega)
  obtain ⟨books, haudited⟩ := hist.audited (Nat.le_of_lt hin)
  rw [hmade] at hafter
  obtain ⟨u, path, next, below, older, saved, callers, frames, replay, hcall, hlength, hput⟩ :=
    gosubs_of_openSubs_lt (tick_ne_defect linked haudited.placed)
      (Nat.lt_of_le_of_lt hbefore hafter)
  -- a call opens one subroutine, so there were exactly `k` before
  have hcount : (h i).openSubs d = older.length := by
    obtain ⟨replay', hfront⟩ := hcall.front
    rw [← hlength, openSubs_front hfront, if_pos rfl]
  have holder : older.length = k := by
    rw [← hlength, openSubs_front hput, if_pos rfl, List.length_cons] at hafter
    rw [hcount] at hbefore
    exact Nat.le_antisymm hbefore (Nat.lt_succ_iff.mp hafter)
  refine ⟨i, u, path, next, below, older, saved, callers, replay, hin, hcall, hlength,
    holder, hmade, hcount.trans holder, hopen, ?_⟩
  have hput' : (h (i + 1)).activations =
      [] ++
        ⟨u, frames, (⟨.block path (next + 1), replay⟩ :: below) :: older,
          saved⟩ :: callers :=
    hmade ▸ hput
  intro t hit htn
  refine hist.keeps_aside hput' (List.nil_append _).symm ?_ hit htn
  intro s his hsn
  rw [holder, hlength]
  exact hopen s his hsn

end History

/-- **A return goes on exactly behind the latest call of its unit that is open.** The stack is the
one that the unit had when this call had passed itself: the same positions, phases and counts of
attempts, and no results of calls. The record shows the line behind the call. -/
theorem return_resumes_behind_call {script : Block} (hprogram : env.program = Program.link script)
    {h : Nat → Machine σ} {n : Nat} (hist : History env h n) {path' : BlockPath} {next' : Nat}
    {replay : List Value} {below' : List Frame} {value : Option Expr} {line : Line}
    {record : StepRecord} (front : (h n).activations =
      ⟨u, ⟨.block path' next', replay⟩ :: below', aside :: older, saved⟩ :: callers)
    (hstmt : env.program.stmt? u ⟨path', next'⟩ = some (.ret value line))
    (done : ((h n).tick env).1 = .record record) :
    ∃ i path next below block, LatestOpen env h n i u path next below older saved callers ∧
      Frame.Clean below ∧
      ((h n).tick env).2.activations =
        ⟨u, ⟨.block path (next + 1), []⟩ :: below, older, saved⟩ :: callers ∧
      env.program.block? u path = some block ∧ record.line = line ∧
      record.nextLine = block.lineAt (next + 1) := by
  have linked : env.program.Linked := hprogram ▸ Program.linked_link script
  have hcount : (h n).openSubs callers.length = older.length + 1 := by
    rw [openSubs_front front, if_pos rfl, List.length_cons]
  have hnow : older.length < (h n).openSubs callers.length := by omega
  obtain ⟨i, u₁, path, next, below, older₁, saved₁, callers₁, replay₁, hin, hcall,
    hlength, holder, hmade, hbefore, hopen, hkept⟩ := hist.exists_call linked hnow
  -- the unit of the call is the one in front, and the stack of the call is the last one it has put
  -- aside
  obtain ⟨inner, act, newer, hacts, hunit, hsaved, haside⟩ := hkept n hin (Nat.le_refl n)
  obtain ⟨rfl, rfl, rfl⟩ | ⟨mid, -, hmid⟩ :=
    split_of_length_le (hacts.symm.trans front : inner ++ act :: callers₁ = [] ++ _ :: callers)
      (Nat.le_of_eq hlength)
  · subst hunit hsaved
    -- there are as many stacks aside as the count says, so none was put aside behind this one
    have hnewer : newer = [] := by
      have hlengths := congrArg List.length haside
      simp only [List.length_append, List.length_cons] at hlengths
      exact List.eq_nil_of_length_eq_zero (by omega)
    subst hnewer
    obtain ⟨rfl, rfl⟩ := List.cons.inj haside
    obtain ⟨books, haudited⟩ := hist.audited (Nat.le_refl n)
    have hbehind := (haudited.balanced linked).behind _ (front ▸ List.mem_cons_self)
    obtain ⟨hreplay, hclean⟩ := Frame.Clean.cons_iff.mp (hbehind.aside _ List.mem_cons_self)
    obtain rfl : replay₁ = [] := hreplay
    obtain ⟨hback, hline, hnext⟩ := tick_ret front hstmt done
    simp only [nextLine?, hback] at hnext
    obtain ⟨block, hblock, hlineAt⟩ := Option.map_eq_some_iff.mp hnext
    refine ⟨i, path, next, below, block, ⟨hin, hcall, hmade, ?_, ?_, ?_⟩, hclean, hback,
      hblock, hline, hlineAt.symm⟩
    · intro t hit htn
      obtain ⟨inner, act, newer, hacts, hunit, hsaved, -⟩ := hkept t hit htn
      exact ⟨inner, act, hacts, hunit, hsaved⟩
    · intro s his hsn
      rw [hbefore]
      exact hopen s his hsn
    -- a later call raised the count above what it is now, so it was closed before
    · intro j u' path' next' below' older' saved' callers' hij hjn hcall' hunit' hmade'
      have hopened := hcall'.openSubs_tick
      rw [hunit', ← hmade'] at hopened
      have hj := hopen j hij (Nat.le_of_lt hjn)
      refine hist.closed hjn ?_ (by omega) (by omega)
      intro t hjt htn
      obtain ⟨inner, act, -, hacts, -⟩ := hkept t (by omega) htn
      rw [hacts, List.length_append, List.length_cons]
      omega
  · have hlengths := congrArg List.length hmid
    simp only [List.length_append, List.length_cons] at hlengths
    omega

theorem History.ticks (env : Setting σ) (scope : Scope) (world : σ) (n : Nat) :
    History env (fun t => (Machine.new scope world).ticks env t) n := by
  refine ⟨⟨scope, world, rfl⟩, ?_⟩
  intro i _
  rw [ticks_succ]
  exact .tick

/-- The lines that a record shows. -/
def lines? : Tick → Option (Line × Line)
  | .record r => some (r.line, r.nextLine)
  | _ => none

theorem exists_record_of_lines {t : Tick} {line nextLine : Line}
    (h : lines? t = some (line, nextLine)) :
    ∃ record, t = .record record ∧ record.line = line ∧ record.nextLine = nextLine := by
  cases t with
  | record r =>
    cases h
    exact ⟨r, rfl, rfl, rfl⟩
  | running => cases h
  | done => cases h
  | failed => cases h
  | defect => cases h

/-- A subroutine is called from the body of a try statement. It calls another one, and that calls a
function. -/
def bracketing : Block :=
  .mk
    [.function "ask" [] (.mk [.noop 2] 1 3) 1,
      .tryCatch (.mk [.gosub "outer" 5, .exit none 6] 4 7) none (.mk [] 7 8) 4,
      .label "outer" 9, .gosub "inner" 10, .ret none 11,
      .label "inner" 12, .call "ask" [] 13, .ret none 14]
    0 15

/-- The return of the outer subroutine goes on in the body of the try statement. -/
theorem return_resumes_behind_call_bracketing :
    let env : Setting Unit := ⟨Program.link bracketing, .default, .null ""⟩
    let h : Nat → Machine Unit := fun t => (Machine.new (.ofInputs []) ()).ticks env t
    lines? ((h 10).tick env).1 = some (11, 6) ∧
    ∃ i path next below older saved callers block record,
      LatestOpen env h 10 i .main path next below older saved callers ∧ Frame.Clean below ∧
      ((h 10).tick env).2.activations =
        ⟨.main, ⟨.block path (next + 1), []⟩ :: below, older, saved⟩ :: callers ∧
      env.program.block? .main path = some block ∧ ((h 10).tick env).1 = .record record ∧
      record.line = 11 ∧ record.nextLine = block.lineAt (next + 1) := by
  intro env h
  have hlines : lines? ((h 10).tick env).1 = some (11, 6) := by decide +kernel
  have hseen : (h 10).activations.map (fun act =>
      (act.unit, act.frames.map Frame.kind, act.subroutines.length)) =
        [(.main, [.block [] 4], 1)] := by
    decide +kernel
  have hstmt : env.program.stmt? .main ⟨[], 4⟩ = some (.ret none 11) := rfl
  have hprogram : env.program = Program.link bracketing := rfl
  have hist : History env h 10 := History.ticks env (.ofInputs []) () 10
  -- from here on only these facts count, not how the machine has come there
  clear_value h env
  refine ⟨hlines, ?_⟩
  obtain ⟨record, hrecord, -⟩ := exists_record_of_lines hlines
  rcases hacts : (h 10).activations with _ | ⟨⟨u, frames, subroutines, saved⟩, callers⟩
  · rw [hacts] at hseen
    cases hseen
  rw [hacts] at hseen
  obtain ⟨hfront, -⟩ := List.cons.inj hseen
  simp only [Prod.mk.injEq] at hfront
  obtain ⟨rfl, hframes, hsubs⟩ := hfront
  obtain ⟨⟨kind, replay⟩, rfl, hkind⟩ := List.map_eq_singleton_iff.mp hframes
  obtain rfl : kind = .block [] 4 := hkind
  obtain ⟨aside, rfl⟩ := List.length_eq_one_iff.mp hsubs
  obtain ⟨i, path, next, below, block, hlatest, hclean, hback, hblock, hline, hnext⟩ :=
    return_resumes_behind_call hprogram hist hacts hstmt hrecord
  exact ⟨i, path, next, below, [], saved, callers, block, record, hlatest, hclean, hback,
    hblock, hrecord, hline, hnext⟩

end Machine

end Stepwise
