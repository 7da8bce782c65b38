import Stepwise.Proofs.Nesting
import Stepwise.Proofs.Ticked

/-!
# Parameters

A function has no scope of its own. Its parameters are bound in the one scope of the run, what they
shadow is put aside, and it is put back when the function is left. Nothing that runs in between can
reach what was put aside, so **each parameter comes back as it was before the call**, whatever the
function did (`parameters_restored`). A name that is listed twice is put aside twice, the second
time with the value the first gave it, and is put back in the opposite order.

A call that is refused leaves every variable as it was, even if some parameters were bound before
one turned out to be constant.

## How a call is followed to its end

The proof has four parts. Putting back undoes binding, for every name that was bound and in whatever
scope it happens (`bindParams_ok`): this is about scopes alone. A call is refused for one of four
reasons, or made (`callFunction_cases`). The number of units grows by a call and by nothing else,
and where it gets smaller without a fault, the function in front is left (`Climbs`, read off
`Ticked`). And a fault leaves functions one after the other, each of which puts its bindings back
(`Unwinds`), before a handler in the caller starts.

Between the call and the end of the function `Proofs/Nesting` says that it is still the same
function with the same bindings put aside. That is where the argument would break down if a script
could come at them.

Variables that are no parameters are not spoken of: a function may assign to them, and they stay
assigned.
-/

namespace Stepwise

open Relation Activation

/-! ## Putting back -/

/-- Where something is put back for a name, it does not matter what the name was. So it does not
matter either what the function did to its parameters. -/
theorem Scope.get?_restoreAll_of_mem {saved : List (String × Option Value)} {n : String}
    (h : n ∈ saved.map Prod.fst) (s s' : Scope) :
    (s.restoreAll saved).get? n = (s'.restoreAll saved).get? n := by
  induction saved generalizing s s' with
  | nil => simp at h
  | cons entry rest ih =>
    obtain ⟨name, previous⟩ := entry
    show ((s.restore name previous).restoreAll rest).get? n =
      ((s'.restore name previous).restoreAll rest).get? n
    by_cases hname : name = n
    · subst hname
      apply get?_restoreAll_congr
      rw [get?_restore, get?_restore, if_pos rfl, if_pos rfl]
    · have hrest : n ∈ rest.map Prod.fst := by
        simpa [Ne.symm hname] using h
      exact ih hrest _ _

namespace Machine

variable {σ : Type} {env : Setting σ} {m m' m₁ : Machine σ} {line : Line} {name : String}
  {args : List Value} {callers inner : List Activation} {act : Activation}

section Binding

variable {s s' : Scope} {acc saved : List (String × Option Value)}

/-- Binding a name and noting what it was is undone by putting that back first. -/
theorem get?_restoreAll_force (s : Scope) (param : String) (arg : Value)
    (acc : List (String × Option Value)) (n : String) :
    ((s.force param arg).restoreAll ((param, s.get? param) :: acc)).get? n =
      (s.restoreAll acc).get? n := by
  show (((s.force param arg).restore param (s.get? param)).restoreAll acc).get? n =
    (s.restoreAll acc).get? n
  apply Scope.get?_restoreAll_congr
  rw [Scope.get?_restore, Scope.get?_force]
  by_cases hname : param = n
  · rw [if_pos hname, hname]
  · rw [if_neg hname, if_neg hname]

/-- What is put aside gives back every parameter, in whatever scope it is put back. The induction is
on the parameters, and generalizes what was put aside before them. -/
theorem bindParams_ok {params : List (String × Value)}
    (h : bindParams s acc params = (.ok saved, s')) {n : String}
    (hn : n ∈ params.map Prod.fst ∨ n ∈ acc.map Prod.fst) (t : Scope) :
    (t.restoreAll saved).get? n = (s.restoreAll acc).get? n := by
  induction params generalizing s acc with
  | nil =>
    cases h
    have hacc : n ∈ saved.map Prod.fst := by simpa using hn
    exact Scope.get?_restoreAll_of_mem hacc t s'
  | cons pair rest ih =>
    obtain ⟨param, arg⟩ := pair
    unfold bindParams at h
    dsimp only at h
    by_cases hconst : s.isConst param = true
    · rw [Scope.set, if_pos hconst] at h
      cases h
    · rw [Scope.set, if_neg hconst] at h
      have hn' : n ∈ rest.map Prod.fst ∨ n ∈ ((param, s.get? param) :: acc).map Prod.fst := by
        simp only [List.map_cons, List.mem_cons] at hn ⊢
        obtain (hparam | hrest) | hacc := hn
        · exact .inr (.inl hparam)
        · exact .inl hrest
        · exact .inr (.inr hacc)
      have hrest : bindParams (s.force param arg) ((param, s.get? param) :: acc) rest =
          (.ok saved, s') := h
      rw [ih hrest hn', get?_restoreAll_force]

/-- A constant among the parameters undoes what was bound before it. The scope need not be the one
before the call, but has the same variables. -/
theorem bindParams_error {params : List (String × Value)} {fault : Fault}
    (h : bindParams s acc params = (.error fault, s')) (n : String) :
    s'.get? n = (s.restoreAll acc).get? n := by
  induction params generalizing s acc with
  | nil => cases h
  | cons pair rest ih =>
    obtain ⟨param, arg⟩ := pair
    unfold bindParams at h
    dsimp only at h
    by_cases hconst : s.isConst param = true
    · rw [Scope.set, if_pos hconst] at h
      cases h
      rfl
    · rw [Scope.set, if_neg hconst] at h
      have hrest : bindParams (s.force param arg) ((param, s.get? param) :: acc) rest =
          (.error fault, s') := h
      rw [ih hrest, get?_restoreAll_force]

/-- Parameters are refused for the first constant among them, and for nothing else. Binding a
parameter makes no constants, so they can be looked for in the scope of the call. -/
theorem bindParams_result (s : Scope) (acc : List (String × Option Value)) {params : List String}
    {args : List Value} (fits : params.length = args.length) :
    (∃ p, params.find? s.isConst = some p ∧
      ∃ s', bindParams s acc (params.zip args) = (.error (.assignToConstant p), s')) ∨
    params.find? s.isConst = none ∧ ∃ saved s', bindParams s acc (params.zip args) =
      (.ok saved, s') := by
  induction params generalizing s acc args with
  | nil => exact .inr ⟨rfl, acc, s, rfl⟩
  | cons param rest ih =>
    cases args with
    | nil => simp at fits
    | cons arg args =>
      rw [List.zip_cons_cons, bindParams]
      by_cases hconst : s.isConst param = true
      · rw [Scope.set, if_pos hconst, List.find?_cons_of_pos hconst]
        exact .inl ⟨param, rfl, _, rfl⟩
      · rw [Scope.set, if_neg hconst, List.find?_cons_of_neg hconst]
        -- binding a name makes no constant
        exact ih (s.force param arg) _ (by simpa using fits)

end Binding

/-! ## Calls -/

/-- Why a call is not made. The reasons are tested in this order, and each constructor has the
negations of those before it, so that at most one applies. -/
inductive Refused (env : Setting σ) (m : Machine σ) (name : String) (args : List Value) :
    Fault → Prop where
  | unknown (none : env.program.function? name = none) :
      Refused env m name args (.undefinedFunction name)
  | deep {d : FunctionDef} (known : env.program.function? name = some d)
      (full : env.options.maxCallDepth < m.activations.length) :
      Refused env m name args (.callDepthExceeded env.options.maxCallDepth)
  | arity {d : FunctionDef} (known : env.program.function? name = some d)
      (room : m.activations.length ≤ env.options.maxCallDepth)
      (differ : d.params.length ≠ args.length) :
      Refused env m name args (.wrongArgCount name d.params.length args.length)
  | constant {d : FunctionDef} {p : String} (known : env.program.function? name = some d)
      (room : m.activations.length ≤ env.options.maxCallDepth)
      (fits : d.params.length = args.length) (first : d.params.find? m.scope.isConst = some p) :
      Refused env m name args (.assignToConstant p)

/-- A function is entered: its parameters are bound, and what they shadow is put aside with it. -/
structure Enters (env : Setting σ) (m : Machine σ) (name : String) (args : List Value)
    (d : FunctionDef) (saved : List (String × Option Value)) (m' : Machine σ) : Prop where
  known : env.program.function? name = some d
  fits : d.params.length = args.length
  bound : ∃ s, bindParams m.scope [] (d.params.zip args) = (.ok saved, s)
  activations : m'.activations = Activation.new (.function name) saved :: m.activations

/-- A refused call is a fault of the statement that asked for it, and changes no variable before
that. For a constant among the parameters that takes an argument, as some were bound already. -/
theorem callFunction_refused {fault : Fault} (refused : Refused env m name args fault)
    (line : Line) :
    ∃ s, m.callFunction env line name args = (m.withScope s).raise line fault ∧
      (∀ n, s.get? n = m.scope.get? n) ∧ ∀ n, s.isConst n = m.scope.isConst n := by
  cases refused with
  | unknown hnone =>
    refine ⟨m.scope, ?_, fun n => rfl, fun n => rfl⟩
    simp only [callFunction, hnone]
    rfl
  | deep known full =>
    refine ⟨m.scope, ?_, fun n => rfl, fun n => rfl⟩
    simp only [callFunction, known, if_pos full]
    rfl
  | arity known room differ =>
    refine ⟨m.scope, ?_, fun n => rfl, fun n => rfl⟩
    simp only [callFunction, known, if_neg (Nat.not_lt.mpr room), if_pos differ]
    rfl
  | @constant d p known room fits first =>
    obtain ⟨p', hp', s, hbind⟩ | ⟨hnone, -⟩ := bindParams_result m.scope [] fits
    · obtain rfl : p' = p := Option.some.inj (hp'.symm.trans first)
      refine ⟨s, ?_, bindParams_error hbind, isConst_bindParams hbind⟩
      simp only [callFunction, known, if_neg (Nat.not_lt.mpr room),
        if_neg (not_not_intro fits), hbind]
    · rw [hnone] at first
      cases first

theorem callFunction_cases (env : Setting σ) (m : Machine σ) (line : Line) (name : String)
    (args : List Value) :
    (∃ fault, Refused env m name args fault) ∨
      ∃ d saved, Enters env m name args d saved (m.callFunction env line name args) := by
  rcases known : env.program.function? name with _ | d
  · exact .inl ⟨_, .unknown known⟩
  by_cases full : env.options.maxCallDepth < m.activations.length
  · exact .inl ⟨_, .deep known full⟩
  by_cases fits : d.params.length = args.length
  · obtain ⟨p, first, -⟩ | ⟨-, saved, s, hbind⟩ := bindParams_result m.scope [] fits
    · exact .inl ⟨_, .constant known (Nat.not_lt.mp full) fits first⟩
    · refine .inr ⟨d, saved, known, fits, ⟨s, hbind⟩, ?_⟩
      simp only [callFunction, known, if_neg full, if_neg (not_not_intro fits), hbind]
      rfl
  · exact .inl ⟨_, .arity known (Nat.not_lt.mp full) fits⟩

/-- What the function of a call that was made puts back. Parameters and arguments are as many, so no
parameter is lost when they are paired. -/
theorem Enters.get?_restoreAll {d : FunctionDef} {saved : List (String × Option Value)}
    (enters : Enters env m name args d saved m') {n : String} (hn : n ∈ d.params) (t : Scope) :
    (t.restoreAll saved).get? n = m.scope.get? n := by
  obtain ⟨s, hbind⟩ := enters.bound
  have hnames : (d.params.zip args).map Prod.fst = d.params :=
    List.map_fst_zip (Nat.le_of_eq enters.fits)
  rw [← hnames] at hn
  exact bindParams_ok hbind (.inl hn) t

/-! ## Asking for a call

The machine asks for a call out of an evaluation, in the middle of a micro-step. What it has in hand
then is not the machine before the micro-step, but differs from it only in the results on one replay
list. -/

/-- A micro-step asks for a call. `m₁` is the machine with the results of earlier calls noted in
the frame in front. -/
structure Asks (env : Setting σ) (m m₁ : Machine σ) (line : Line) (name : String)
    (args : List Value) : Prop where
  tick : m.tick env = (.running, m₁.callFunction env line name args)
  scope : m₁.scope = m.scope
  frames : ∃ replay, m₁.activations =
    Activation.mapFrame (fun f => { f with replay }) m.activations

theorem Asks.length_activations (asks : Asks env m m₁ line name args) :
    m₁.activations.length = m.activations.length := by
  obtain ⟨replay, h⟩ := asks.frames
  rw [h, length_mapFrame]

/-- A statement that stops for a call has written nothing to the scope. Its part that writes comes
after the evaluation, and has not been reached. -/
theorem execute_call_scope {stmt : Stmt} {store : Store σ} {replay : List Value}
    {r : Evaluated σ Effect} (hexec : stmt.execute env store replay = some r)
    (hcall : r.result = .error (.call name args)) : r.store.scope = store.scope := by
  obtain ⟨hs, hc⟩ := Stmt.simple_of_execute hexec
  obtain ⟨α, e, k, heq⟩ | ⟨k, heq⟩ := stmt.execute_eq env hs hc
  · rw [heq] at hexec
    cases hexec
    have hresult := Evaluated.result_of_commit_call hcall
    simp only [Evaluated.commit, hresult]
    rfl
  · rw [heq] at hexec
    cases hexec
    cases Evaluated.result_of_commit_call hcall

theorem Stopped.call_scope {u : CodeUnit} {kind : FrameKind} {replay replay' : List Value}
    {store : Store σ} (stops : Stopped env m u kind replay replay' store line (.call name args)) :
    store.scope = m.scope := by
  cases stops with
  | statement hstmt hexec hresult => exact execute_call_scope hexec hresult
  | header same => exact same

theorem scope_withFrames (m : Machine σ) (frames : List Frame) :
    (m.withFrames frames).scope = m.scope := by
  unfold withFrames mapTop
  split <;> rfl

theorem length_withFrames (m : Machine σ) (frames : List Frame) :
    (m.withFrames frames).activations.length = m.activations.length := by
  unfold withFrames mapTop
  split <;> simp_all

theorem scope_raise (m : Machine σ) (line : Line) (fault : Fault) :
    (m.raise line fault).scope = m.scope.noteFailure ⟨line, fault⟩ := by
  unfold raise mapFrame mapTop
  dsimp only
  split <;> rfl

theorem length_raise (m : Machine σ) (line : Line) (fault : Fault) :
    (m.raise line fault).activations.length = m.activations.length := by
  rw [raise_activations, length_mapFrame]

/-- What a statement that is done asks for never puts a unit in front, and takes away the unit in
front only by leaving the function, or all units at once. -/
theorem apply_activations (env : Setting σ) (m : Machine σ) (line : Line) (effect : Effect) :
    (m.apply env line effect).2.activations.length = m.activations.length ∨
    (m.apply env line effect).2.activations = [] ∨
    ∃ v, (m.apply env line effect).2 = m.returnFromFunction v := by
  cases effect with
  | value v => exact .inl (by rw [apply, recorded_snd])
  | jump label =>
    left
    rcases hacts : m.activations with _ | ⟨⟨u, frames, subroutines, saved⟩, callers⟩
    · simp only [apply, jump, hacts, recorded_snd]
    obtain ⟨hjump, -⟩ | ⟨hjump, -⟩ | ⟨-, -, frames', hjump, -⟩ :=
      jump_cases env hacts label
    · simp only [apply, hjump, hacts]
    · simp only [apply, hjump, length_raise, hacts]
    · simp only [apply, hjump, recorded_snd, length_withFrames, hacts]
  | sub label =>
    left
    rcases hacts : m.activations with _ | ⟨⟨u, frames, subroutines, saved⟩, callers⟩
    · simp only [apply, gosub, hacts, recorded_snd]
    obtain ⟨hgosub, -⟩ | ⟨fault, hgosub⟩ |
        ⟨-, -, frames', m', hgosub, -, -, -, -, hm'⟩ := gosub_cases env hacts label
    · simp only [apply, hgosub, hacts]
    · simp only [apply, hgosub, length_raise, hacts]
    · simp only [apply, hgosub, recorded_snd, hm', List.length_cons]
  | ret v =>
    rw [apply, recorded_snd]
    -- behind a subroutine the units stay, and otherwise the function or the program is left
    rcases hacts : m.activations
      with _ | ⟨⟨u, frames, _ | ⟨aside, older⟩, saved⟩, callers⟩
    · exact .inl (by simp only [ret, hacts])
    · cases u with
      | main => exact .inr (.inl (by simp only [ret, hacts, terminate]))
      | function name => exact .inr (.inr ⟨v.getD .null, by simp only [ret, hacts]⟩)
    · exact .inl (by simp only [ret, hacts, mapTop, List.length_cons])
  | exit status => exact .inr (.inl (by rw [apply, recorded_snd, terminate]))
  | delay ns v => exact .inl (by rw [apply, recorded_snd])
  | suspend => exact .inl (by rw [apply, recorded_snd])

theorem length_returnFromFunction (m : Machine σ) (v : Value) :
    (m.returnFromFunction v).activations.length = m.activations.length - 1 := by
  rcases hacts : m.activations with _ | ⟨act, callers⟩
  · simp only [returnFromFunction, hacts, List.length_nil]
  · simp only [returnFromFunction_activations hacts, length_mapFrame, List.length_cons,
      Nat.add_sub_cancel]

theorem scope_returnFromFunction (h : m.activations = act :: callers) (v : Value) :
    (m.returnFromFunction v).scope = m.scope.restoreAll act.saved := by
  simp only [returnFromFunction, h]
  unfold mapFrame mapTop
  split <;> rfl

/-- What a micro-step does to the number of units. Only what parameters need is kept of `Ticked`:
where a unit may come, and what is put back where one goes. -/
inductive Climbs (env : Setting σ) (m : Machine σ) : Tick × Machine σ → Prop where
  | asks {m₁ : Machine σ} {line : Line} {name : String} {args : List Value}
      (scope : m₁.scope = m.scope)
      (frames : ∃ replay, m₁.activations =
        Activation.mapFrame (fun f => { f with replay }) m.activations) :
      Climbs env m (.running, m₁.callFunction env line name args)
  | level {r : Tick × Machine σ} (same : r.2.activations.length = m.activations.length) :
      Climbs env m r
  | emptied {r : Tick × Machine σ} (none : r.2.activations = []) : Climbs env m r
  /-- A function is left and puts back what it shadowed, in the scope `s`. -/
  | left {r : Tick × Machine σ} {act : Activation} {callers : List Activation}
      (front : m.activations = act :: callers) (length : r.2.activations.length = callers.length)
      (s : Scope) (scope : r.2.scope = s.restoreAll act.saved) : Climbs env m r
  | unwound {failure : Failure} (pending : m.pending = some failure) :
      Climbs env m (m.unwind env failure)

theorem Climbs.returned {r : Tick × Machine σ} {store : Store σ}
    {frames : List Frame} {v : Value} (front : m.activations = act :: callers)
    (hr : r.2 = ({ m with store }.withFrames frames).returnFromFunction v) : Climbs env m r := by
  obtain ⟨u, before, subroutines, saved⟩ := act
  have hframes : ({ m with store }.withFrames frames).activations =
      ⟨u, frames, subroutines, saved⟩ :: callers :=
    withFrames_activations (m := { m with store }) front frames
  refine .left front ?_ store.scope ?_
  · rw [hr, length_returnFromFunction, hframes]
    rfl
  · rw [hr, scope_returnFromFunction hframes, scope_withFrames]
    rfl

/-- Every micro-step does one of these. A statement that is done changes the number of units only by
returning or by ending the run. -/
theorem Ticked.climbs {r : Tick × Machine σ} (h : Ticked env m r) : Climbs env m r := by
  cases h with
  | astray => exact .level rfl
  | cancelled => exact .emptied rfl
  | unwind pending => exact .unwound pending
  | idle going nothing => exact .level rfl
  | ended => exact .emptied rfl
  | back going front =>
    exact .left front (by rw [length_returnFromFunction, front]; rfl) m.scope
      (scope_returnFromFunction front _)
  | moved going same frames => exact .level (length_withFrames _ frames)
  | ran going front hstmt hexec hresult =>
    obtain hsame | hnone | ⟨v, hback⟩ := apply_activations env _ _ _
    · exact .level (hsame.trans (length_withFrames _ _))
    · exact .emptied hnone
    · exact .returned front hback
  | @stopped u kind replay replay' below subroutines saved callers store line i going front stops =>
    cases i with
    | fault f => exact .level ((length_raise _ _ _).trans (length_withFrames _ _))
    | call name args =>
      refine .asks ((scope_withFrames _ _).trans stops.call_scope) ⟨replay', ?_⟩
      rw [withFrames_activations (m := { m with store }) front, front]
      rfl

/-! ## Looking for a handler -/

/-- A function without a handler is left. The script itself is never left in this way: a fault that
it does not catch ends the run. -/
inductive Leaves : Scope × List Activation → Scope × List Activation → Prop where
  | leave {s : Scope} {act : Activation} {callers : List Activation} {name : String}
      (nothing : Frame.findInStacks (act.frames :: act.subroutines) = none)
      (function : act.unit = .function name) :
      Leaves (s, act :: callers) (s.restoreAll act.saved, callers)

/-- Functions without a handler are left, one after the other. It is the search for a handler, cut
into steps, so that one can speak of the scope in the middle of it. -/
def Unwinds : Scope × List Activation → Scope × List Activation → Prop := ReflTransGen Leaves

/-- The search goes on where it has come to. So what it finds can be said of the scope and the units
in the middle of it. -/
theorem Unwinds.findCaught_eq {p q : Scope × List Activation} (h : Unwinds p q) :
    findCaught p.1 p.2 = findCaught q.1 q.2 := by
  unfold Unwinds at h
  induction h with
  | refl => rfl
  | tail _ hleaves ih =>
    rw [ih]
    cases hleaves with
    | leave nothing function => simp only [findCaught, nothing, function]

/-- The search for a handler stops in front of a unit, or in it, or leaves it. The induction is on
the units in front of it, which the search goes through first. -/
theorem findCaught_or_unwinds (s : Scope) (functions : AllFunctions (inner ++ [act])) :
    (∃ c, findCaught s (inner ++ act :: callers) = .ok c ∧
        callers.length ≤ c.callers.length) ∨
      ∃ s' : Scope, Unwinds (s, inner ++ act :: callers) (s'.restoreAll act.saved, callers) := by
  induction inner generalizing s with
  | nil =>
    obtain ⟨name, hunit⟩ := functions act (by simp)
    rcases hfind : Frame.findInStacks (act.frames :: act.subroutines)
      with _ | ⟨handler, frames, older⟩
    · exact .inr ⟨s, .single (.leave hfind hunit)⟩
    · refine .inl ⟨⟨handler, { act with frames, subroutines := older }, callers, s⟩, ?_,
        Nat.le_refl _⟩
      simp only [List.nil_append, findCaught, hfind]
  | cons top inner ih =>
    obtain ⟨name, hunit⟩ := functions top (by simp)
    rcases hfind : Frame.findInStacks (top.frames :: top.subroutines)
      with _ | ⟨handler, frames, older⟩
    -- this function has no handler, so it is left, and the search goes on among the others
    · have hleaves : Leaves (s, top :: (inner ++ act :: callers))
          (s.restoreAll top.saved, inner ++ act :: callers) := .leave hfind hunit
      have functions' : AllFunctions (inner ++ [act]) := fun a ha =>
        functions a (List.mem_cons_of_mem _ ha)
      obtain ⟨c, hfound, hlength⟩ | ⟨s', hunwinds⟩ := ih (s.restoreAll top.saved) functions'
      · refine .inl ⟨c, ?_, hlength⟩
        rw [← hfound]
        exact Unwinds.findCaught_eq (.single hleaves)
      · exact .inr ⟨s', .head hleaves hunwinds⟩
    -- a handler in front of the unit: the unit is one of the callers that stay
    · refine .inl
        ⟨⟨handler, { top with frames, subroutines := older }, inner ++ act :: callers, s⟩, ?_,
          ?_⟩
      · simp only [List.cons_append, findCaught, hfind]
      · simp only [List.length_append, List.length_cons]
        omega

/-- A fault that is there goes before a cancellation. -/
theorem tick_pending {failure : Failure} (pending : m.pending = some failure) :
    m.tick env = m.unwind env failure := by
  simp [tick, heedCancel, pending]

/-- A unit that a fault takes away is one that the search for a handler has left. A handler in it,
or further in, would have kept it. -/
theorem unwinds_of_length_le {failure : Failure} (hm : m.activations = inner ++ act :: callers)
    (functions : AllFunctions (inner ++ [act])) (catchable : failure.fault.isTerminal = false)
    (gone : (m.unwind env failure).2.activations.length ≤ callers.length) :
    ∃ s : Scope, Unwinds (m.scope, m.activations) (s.restoreAll act.saved, callers) := by
  rw [hm]
  obtain ⟨c, hfind, hlength⟩ | hunwinds := findCaught_or_unwinds m.scope functions
  · -- a handler further in keeps the unit, and so does a search that goes astray
    exfalso
    rw [← hm] at hfind
    unfold unwind at gone
    rw [catchable, hfind] at gone
    dsimp only at gone
    obtain ⟨m', hhandle, hacts⟩ | ⟨hhandle, -⟩ := handle_cases env m failure c
    · simp only [hhandle, Bool.false_eq_true, if_false, hacts, List.length_cons] at gone
      omega
    · simp only [hhandle, Bool.false_eq_true, if_false, hm, List.length_append,
        List.length_cons] at gone
      omega
  · exact hunwinds

/-! ## Calls and returns -/

theorem length_callFunction (env : Setting σ) (m : Machine σ) (line : Line) (name : String)
    (args : List Value) :
    m.activations.length ≤ (m.callFunction env line name args).activations.length := by
  obtain ⟨fault, refused⟩ | ⟨d, saved, enters⟩ := callFunction_cases env m line name args
  · obtain ⟨s, hcall, -⟩ := callFunction_refused refused line
    rw [hcall, length_raise]
    exact Nat.le_refl _
  · rw [enters.activations, List.length_cons]
    exact Nat.le_succ _

/-- **Only a call that is made puts a unit in front of the others.** All other micro-steps have as
many units as before or fewer. -/
theorem enters_of_length_lt (pushed : m.activations.length < (m.tick env).2.activations.length) :
    ∃ m₁ line name args d saved, Asks env m m₁ line name args ∧
      Enters env m₁ name args d saved (m.tick env).2 := by
  have climbs := (tick_ticked env m).climbs
  generalize hr : m.tick env = r at pushed climbs
  cases climbs with
  | @asks m₁ line name args scope frames =>
    have asks : Asks env m m₁ line name args := ⟨hr, scope, frames⟩
    obtain ⟨fault, refused⟩ | ⟨d, saved, enters⟩ :=
      callFunction_cases env m₁ line name args
    · obtain ⟨s, hcall, -⟩ := callFunction_refused refused line
      rw [hcall, length_raise] at pushed
      exact absurd pushed (Nat.not_lt.mpr (Nat.le_of_eq asks.length_activations))
    · exact ⟨m₁, line, name, args, d, saved, asks, enters⟩
  | level same => omega
  | emptied none => simp [none] at pushed
  | left front length =>
    rw [front, length, List.length_cons] at pushed
    omega
  | @unwound failure pending =>
    obtain hnone | hsame | ⟨c, frames, hfind, hacts⟩ := unwind_activations env m failure
    · simp [hnone] at pushed
    · rw [hsame] at pushed
      omega
    · obtain ⟨inner, act, hsplit, -⟩ := caught_split hfind
      rw [hacts, hsplit, List.length_cons, List.length_append, List.length_cons] at pushed
      omega

/-- A function that is left without a fault, while others go on, was in front, and has put back what
it shadowed. -/
theorem tick_leaves (going : m.pending = none) (hm : m.activations = inner ++ act :: callers)
    (others : (m.tick env).2.activations ≠ [])
    (gone : (m.tick env).2.activations.length ≤ callers.length) :
    ∃ s : Scope, (m.tick env).2.scope = s.restoreAll act.saved := by
  have climbs := (tick_ticked env m).climbs
  have hlength : m.activations.length = inner.length + callers.length + 1 := by
    rw [hm, List.length_append, List.length_cons]
    omega
  generalize m.tick env = r at others gone climbs
  cases climbs with
  | @asks m₁ line name args scope frames =>
    obtain ⟨replay, hframes⟩ := frames
    have hle := length_callFunction env m₁ line name args
    rw [hframes, length_mapFrame] at hle
    dsimp only at gone
    omega
  | level same => omega
  | emptied none => exact absurd none others
  -- one unit is left at a time, so the unit that is gone was the one in front
  | @left r front callers' hfront length s scope =>
    rw [hfront, List.length_cons] at hlength
    have hinner : inner = [] := List.eq_nil_of_length_eq_zero (by omega)
    subst hinner
    rw [hm] at hfront
    obtain ⟨rfl, rfl⟩ := List.cons.inj hfront
    exact ⟨s, scope⟩
  | unwound pending =>
    rw [going] at pending
    cases pending

/-- **The parameters of a function come back as they were before the call.** From the call on, as
long as the function is there, whatever happens: the micro-step that leaves it gives back each of
its parameters, and if a fault leaves it, then the search for a handler has given them back when it
goes on in the caller. A call that is refused is a fault, and changes nothing else but the message
of the last failure. -/
theorem parameters_restored (env : Setting σ) (m : Machine σ) :
    (m.activations.length < (m.tick env).2.activations.length →
      ∃ m₁ line name args d saved, Asks env m m₁ line name args ∧
        Enters env m₁ name args d saved (m.tick env).2 ∧
        ∀ m', Above env m.activations.length (m.tick env).2 m' →
          (m'.pending = none → (m'.tick env).2.activations ≠ [] →
            (m'.tick env).2.activations.length ≤ m.activations.length →
            ∀ n ∈ d.params, (m'.tick env).2.scope.get? n = m.scope.get? n) ∧
          ∀ failure, m'.pending = some failure → failure.fault.isTerminal = false →
            (m'.tick env).2.activations.length ≤ m.activations.length →
            ∃ s callers, Unwinds (m'.scope, m'.activations) (s, callers) ∧
              callers.length = m.activations.length ∧
              findCaught m'.scope m'.activations = findCaught s callers ∧
              ∀ n ∈ d.params, s.get? n = m.scope.get? n) ∧
    ∀ m₁ line name args fault, Asks env m m₁ line name args →
      Refused env m₁ name args fault → (m.tick env).2.pending = some ⟨line, fault⟩ ∧
      (m.tick env).2.activations =
        Activation.mapFrame (fun f => { f with replay := [] }) m.activations ∧
      ∀ n, n ≠ Scope.exceptionMessage → (m.tick env).2.scope.get? n = m.scope.get? n := by
  constructor
  · intro pushed
    obtain ⟨m₁, line, name, args, d, saved, asks, enters⟩ := enters_of_length_lt pushed
    refine ⟨m₁, line, name, args, d, saved, asks, enters, ?_⟩
    intro m' above
    rw [← asks.length_activations] at above ⊢
    -- the function is where it was put, with the bindings it was given
    have hstart : (m.tick env).2.activations =
        [] ++ Activation.new (.function name) saved :: m₁.activations := enters.activations
    obtain ⟨inner, act, hacts, hunit, hsaved, functions⟩ := above.keeps hstart nofun
    have functions' : AllFunctions (inner ++ [act]) := by
      intro a ha
      rcases List.mem_append.mp ha with ha | ha
      · exact functions a ha
      · obtain rfl := List.mem_singleton.mp ha
        exact ⟨name, hunit⟩
    have restored : ∀ (s : Scope), ∀ n ∈ d.params,
        (s.restoreAll act.saved).get? n = m.scope.get? n := by
      intro s n hn
      rw [hsaved, ← asks.scope]
      exact enters.get?_restoreAll hn s
    constructor
    · intro going others gone n hn
      obtain ⟨s, hscope⟩ := tick_leaves going hacts others gone
      rw [hscope, restored s n hn]
    · intro failure pending catchable gone
      rw [tick_pending pending] at gone
      obtain ⟨s, hunwinds⟩ := unwinds_of_length_le hacts functions' catchable gone
      exact ⟨_, _, hunwinds, rfl, hunwinds.findCaught_eq, restored s⟩
  -- the other half: what a refused call leaves behind
  · intro m₁ line name args fault asks refused
    obtain ⟨s, hcall, hget, -⟩ := callFunction_refused refused line
    rw [asks.tick, hcall]
    refine ⟨rfl, ?_, ?_⟩
    · obtain ⟨replay, hframes⟩ := asks.frames
      rw [raise_activations]
      show Activation.mapFrame _ m₁.activations = _
      rw [hframes, mapFrame_mapFrame]
    · intro n hn
      rw [scope_raise, Scope.noteFailure, Scope.get?_force, if_neg hn.symm]
      exact (hget n).trans (congrArg (Scope.get? · n) asks.scope)

/-- A function lists a parameter twice and assigns to all its parameters. One of them is a variable
of the caller, the other is none. -/
def shadowing : Block :=
  .mk
    [.function "f" ["p", "q", "p"]
        (.mk [.assign [.var "p" 2] .set [.null 2] 2, .assign [.var "q" 3] .set [.null 3] 3,
          .ret none 4] 1 5)
        1,
      .assign [.var "p" 6] .set [.bool true 6] 6,
      .call "f" [.null 7, .null 7, .bool false 7] 7]
    0 8

/-- The third micro-step enters the function, and the one that ends its third statement gives back
the parameters. -/
theorem parameters_restored_shadowing :
    let env : Setting Unit := ⟨Program.link shadowing, .default, .null ""⟩
    let m := (Machine.new (.ofInputs []) ()).ticks env 2
    let m' := (m.tick env).2.ticks env 2
    m.activations.length < (m.tick env).2.activations.length ∧
    ∃ m₁ line name args d saved, Asks env m m₁ line name args ∧
      Enters env m₁ name args d saved (m.tick env).2 ∧
      ∀ n ∈ d.params, (m'.tick env).2.scope.get? n = m.scope.get? n := by
  intro env m m'
  have pushed : m.activations.length < (m.tick env).2.activations.length := by decide +kernel
  obtain ⟨m₁, line, name, args, d, saved, asks, enters, left⟩ :=
    (parameters_restored env m).1 pushed
  have above : Above env m.activations.length (m.tick env).2 m' :=
    .tail (.single ⟨.tick, by decide +kernel⟩) ⟨.tick, by decide +kernel⟩
  have going : m'.pending.isNone = true := by decide +kernel
  have others : (m'.tick env).2.activations.isEmpty = false := by decide +kernel
  refine ⟨pushed, m₁, line, name, args, d, saved, asks, enters,
    (left m' above).1 (Option.isNone_iff_eq_none.mp going) ?_ ?_⟩
  · intro hnone
    rw [hnone] at others
    cases others
  · decide +kernel

end Machine

end Stepwise
