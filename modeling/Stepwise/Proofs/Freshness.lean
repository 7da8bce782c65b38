import Stepwise.Proofs.Subroutines

/-!
# Results stay with their statement

An evaluation that stops for a function leaves the results of its earlier calls in its frame, and
the function adds its value there. The next micro-step is then the same evaluation once more, and it
uses the list up. **So a list of results never reaches another statement** (`results_confined`):
lists that were put aside, or are under the frame in front, are empty; and a list in front that is
not empty was left there by the statement or header that is about to be evaluated, at the very same
position, before it stopped for the function that has just returned.

What has just come in front by anything but the return of a function starts with an empty list: the
next statement, a header, an iteration, an attempt, a handler, what is behind a label.

## Moments of a run

The statement is about two moments and what lies between them, so runs are taken as functions of
time (`History`). The later moment is found first: where results are in front, the last micro-step
was a return (`History.returned`). The earlier one is found from it, by going back in time as long
as the unit under the function waits unchanged (`History.stopped`). A `Spot` is what the two moments
have in common, which is everything about the unit in front but its list.

What a single micro-step does to the lists is known from `Replays` (`Proofs/ReplayLists`), and only
two of its cases matter here: one that brings a list in front, and one that leaves a unit waiting.
-/

namespace Stepwise

open Activation

namespace Machine

variable {σ : Type} {env : Setting σ} {m : Machine σ} {acts inner callers : List Activation}
  {act callee : Activation}

/-! ## Where a unit evaluates -/

/-- A frame in front of a unit with all that is around it, but for its results of calls. The kind of
the frame is the position: the index in a block, or a statement and its phase. -/
structure Spot where
  unit : CodeUnit
  kind : FrameKind
  below : List Frame
  subroutines : List (List Frame)
  saved : List (String × Option Value)
  callers : List Activation

/-- The activations that stand there with these results. -/
def Spot.units (s : Spot) (results : List Value) : List Activation :=
  ⟨s.unit, ⟨s.kind, results⟩ :: s.below, s.subroutines, s.saved⟩ :: s.callers

theorem Spot.units_inj {s s' : Spot} {results results' : List Value}
    (h : s.units results = s'.units results') : s = s' ∧ results = results' := by
  obtain ⟨u, kind, below, subroutines, saved, callers⟩ := s
  obtain ⟨u', kind', below', subroutines', saved', callers'⟩ := s'
  cases h
  exact ⟨rfl, rfl⟩

/-- What is evaluated there. -/
def Spot.evaluation (p : Program) (s : Spot) : Evaluation := s.kind.evaluation p s.unit

/-- The results of the innermost unit. -/
def results (m : Machine σ) : List Value :=
  match m.activations with
  | [] => []
  | act :: _ => act.replay

/-- The evaluation in front stops for a function, which is entered. It waits with these results,
those of the calls that came before on its way. -/
structure StopsAt (env : Setting σ) (m : Machine σ) (spot : Spot) (results : List Value)
    (name : String) : Prop where
  evaluated : ∃ earlier, m.activations = spot.units earlier ∧
    Stops env.options.strictOutputs (spot.evaluation env.program) m.scope earlier results name
  entered : ∃ shadowed,
    (m.tick env).2.activations = Activation.new (.function name) shadowed :: spot.units results

/-- The function in front returns, and its value goes to the evaluation that waits with these
results, at their end. -/
structure ReturnsTo (env : Setting σ) (m : Machine σ) (spot : Spot) (results : List Value)
    (name : String) (v : Value) : Prop where
  going : m.pending = none
  function : ∃ callee, callee.unit = .function name ∧
    m.activations = callee :: spot.units results
  back : (m.tick env).2.activations = spot.units (results ++ [v])

/-! ## One micro-step -/

/-- Only micro-steps change the position, or bring a fault. What else an owner does may change the
scope and the flags. -/
theorem Acts.cases_position {m' : Machine σ} (h : Acts env m m') :
    (m'.activations = m.activations ∧ m'.pending = m.pending) ∨ m' = (m.tick env).2 := by
  cases h with
  | tick => exact .inr rfl
  | finish => exact .inl ⟨rfl, rfl⟩
  | handled h => exact .inl ⟨h.activations, h.pending⟩

theorem replay_of_mapFrame
    (h : Activation.mapFrame (fun f => { f with replay := [] }) acts = act :: callers) :
    act.replay = [] := by
  rcases acts with _ | ⟨⟨u, _ | ⟨frame, below⟩, subroutines, saved⟩, older⟩
  · cases h
  · obtain ⟨rfl, -⟩ := List.cons.inj h
    rfl
  · obtain ⟨rfl, -⟩ := List.cons.inj h
    rfl

theorem results_eq (h : m.activations = act :: callers) : m.results = act.replay := by
  simp [results, h]

theorem results_of_nil (h : m.activations = []) : m.results = [] := by
  simp [results, h]

/-- Results that are in front behind a micro-step were brought by a function that returned. All
other kinds of micro-step leave a frame in front without results. -/
theorem Replays.returns (h : Replays env m (act :: callers)) (hresults : act.replay ≠ []) :
    m.pending = none ∧ ∃ (spot : Spot) (waiting : List Value) (name : String) (v : Value)
      (callee : Activation), callee.unit = .function name ∧
      m.activations = callee :: spot.units waiting ∧
        act :: callers = spot.units (waiting ++ [v]) := by
  generalize hacts : act :: callers = acts at h
  cases h with
  | ended => cases hacts
  | call front stops shadowed =>
    -- a function that was entered has no results yet
    obtain ⟨rfl, -⟩ := List.cons.inj hacts
    exact absurd (Idle.new _ shadowed).replay hresults
  | caught found failed unit idle =>
    obtain ⟨rfl, -⟩ := List.cons.inj hacts
    exact absurd idle.replay hresults
  | @settles front callers' _ hfront going settles =>
    cases settles with
    | ended => cases hacts
    | idle unit idle =>
      obtain ⟨rfl, -⟩ := List.cons.inj hacts
      exact absurd idle.replay hresults
    | @back name unit v value =>
      refine ⟨going, ?_⟩
      rcases callers'
        with _ | ⟨⟨u, _ | ⟨⟨kind, waiting⟩, below⟩, subroutines, saved⟩, older⟩
      · cases hacts
      · obtain ⟨rfl, -⟩ := List.cons.inj hacts
        exact absurd rfl hresults
      · exact ⟨⟨u, kind, below, subroutines, saved, older⟩, waiting, name, v, front, unit,
          hfront, rfl⟩

/-- Working on a unit leaves the ones that wait under it. The unit may have come in front of others
that were dropped, which is why there may be more in front before than behind. -/
theorem waits_under (front : List Activation) {a a' : Activation} {under : List Activation}
    (hunit : a'.unit = a.unit) (h : a' :: under = inner ++ callee :: act :: callers) :
    ∃ inner₀ callee₀, front ++ a :: under = inner₀ ++ callee₀ :: act :: callers ∧
      callee₀.unit = callee.unit := by
  cases inner with
  | nil =>
    obtain ⟨rfl, rfl⟩ := List.cons.inj h
    exact ⟨front, a, rfl, hunit.symm⟩
  | cons first inner =>
    obtain ⟨-, rfl⟩ := List.cons.inj h
    exact ⟨front ++ a :: inner, callee, by simp, rfl⟩

/-- A unit that waits behind a micro-step has waited before, or it stopped for a function just
now. -/
theorem Replays.waits (h : Replays env m (inner ++ callee :: act :: callers)) :
    (∃ inner₀ callee₀, m.activations = inner₀ ++ callee₀ :: act :: callers ∧
      callee₀.unit = callee.unit) ∨
    ∃ (spot : Spot) (earlier waiting : List Value) (name : String)
      (shadowed : List (String × Option Value)), m.activations = spot.units earlier ∧
      Stops env.options.strictOutputs (spot.evaluation env.program) m.scope earlier waiting name ∧
      callee = Activation.new (.function name) shadowed ∧ act :: callers = spot.units waiting ∧
      inner = [] := by
  generalize hacts : inner ++ callee :: act :: callers = acts at h
  cases h with
  | ended => simp at hacts
  -- a handler starts in a unit that was there, and no unit under it changes
  | caught found failed unit idle =>
    left
    rw [found]
    exact waits_under _ unit hacts.symm
  | @call u kind earlier waiting below subroutines saved older name front stops shadowed =>
    cases inner with
    -- the function that was called is in front, and the unit that waits is the one that has called
    -- it
    | nil =>
      obtain ⟨rfl, hrest⟩ := List.cons.inj hacts
      exact .inr ⟨⟨u, kind, below, subroutines, saved, older⟩, earlier, waiting, name,
        shadowed, front, stops, rfl, hrest, rfl⟩
    -- further down nothing has changed but that the caller has kept results
    | cons first inner =>
      left
      obtain ⟨-, hrest⟩ := List.cons.inj hacts
      have hunit : (⟨u, ⟨kind, waiting⟩ :: below, subroutines, saved⟩ : Activation).unit =
          (⟨u, ⟨kind, earlier⟩ :: below, subroutines, saved⟩ : Activation).unit := rfl
      rw [front]
      exact waits_under [] hunit hrest.symm
  | @settles front callers' _ hfront going settles =>
    left
    rw [hfront]
    cases settles with
    | ended => simp at hacts
    | idle unit idle => exact waits_under [] unit hacts.symm
    | @back name unit v value =>
      rcases callers' with _ | ⟨a, older⟩
      · simp [Activation.mapFrame] at hacts
      obtain ⟨a', hmap, halters⟩ :=
        mapFrame_cons (fun f => { f with replay := f.replay ++ [v] }) a older
      rw [hmap] at hacts
      exact waits_under [front] halters.unit hacts.symm

/-! ## Histories -/

namespace History

variable {h : Nat → Machine σ} {n : Nat}

/-- What a micro-step of a linked program makes of the lists. That the program is linked is needed
because a defect could do anything. -/
theorem replays (linked : env.program.Linked) (hist : History env h n) {t : Nat} (ht : t ≤ n) :
    Replays env (h t) ((h t).tick env).2.activations := by
  obtain ⟨books, haudited⟩ := hist.audited ht
  have hbalanced := haudited.balanced linked
  have sound := tick_ne_defect linked haudited.placed
  exact tick_replays hbalanced.behind (fun _ _ => hbalanced.nothing) sound

/-- **A unit that waits stopped for the function above it**, and has waited ever since as it was
then. By induction over time, from the moment at which it is seen. -/
theorem stopped (linked : env.program.Linked) (hist : History env h n) {t : Nat} (ht : t ≤ n)
    (hacts : (h t).activations = inner ++ callee :: act :: callers) :
    ∃ i spot waiting name, i < t ∧ StopsAt env (h i) spot waiting name ∧
      h (i + 1) = ((h i).tick env).2 ∧ act :: callers = spot.units waiting ∧
        callee.unit = .function name ∧
      ∀ s, i < s → s ≤ t → ∃ inner' callee', callee'.unit = .function name ∧
        (h s).activations = inner' ++ callee' :: spot.units waiting := by
  induction t generalizing inner callee with
  | zero =>
    -- at the start there is one unit only
    obtain ⟨scope, world, hstart⟩ := hist.start
    have hlength := congrArg List.length hacts
    simp only [hstart, Machine.new, List.length_append, List.length_cons,
      List.length_nil] at hlength
    omega
  | succ t ih =>
    -- a unit that waited before has the call it had then, and one moment more to wait
    have later : ∀ inner₀ callee₀, (h t).activations =
      inner₀ ++ callee₀ :: act :: callers →
        callee₀.unit = callee.unit →
        ∃ i spot waiting name, i < t + 1 ∧ StopsAt env (h i) spot waiting name ∧
          h (i + 1) = ((h i).tick env).2 ∧ act :: callers = spot.units waiting ∧
          callee.unit = .function name ∧
          ∀ s, i < s → s ≤ t + 1 → ∃ inner' callee', callee'.unit = .function name ∧
            (h s).activations = inner' ++ callee' :: spot.units waiting := by
      intro inner₀ callee₀ hbefore hunit
      obtain ⟨i, spot, waiting, name, hi, hstops, htick, hspot, hname, hwaits⟩ :=
        ih (by omega) hbefore
      refine ⟨i, spot, waiting, name, by omega, hstops, htick, hspot, hunit ▸ hname, ?_⟩
      intro s his hst
      by_cases hs : s = t + 1
      · subst hs
        exact ⟨inner, callee, hunit ▸ hname, by rw [hacts, hspot]⟩
      · exact hwaits s his (by omega)
    obtain hsame | htick := (hist.acts t (by omega)).cases_activations
    · exact later inner callee (hsame ▸ hacts) rfl
    have hreplays := hist.replays linked (t := t) (by omega)
    rw [← htick, hacts] at hreplays
    obtain ⟨inner₀, callee₀, hbefore, hunit⟩ |
      ⟨spot, earlier, waiting, name, shadowed, hfront, hstops, rfl, hspot, rfl⟩ :=
      hreplays.waits
    · exact later inner₀ callee₀ hbefore hunit
    · have hentered : ((h t).tick env).2.activations =
          Activation.new (.function name) shadowed :: spot.units waiting := by
        rw [← htick, hacts, List.nil_append, hspot]
      refine ⟨t, spot, waiting, name, by omega,
        ⟨⟨earlier, hfront, hstops⟩, shadowed, hentered⟩, htick, hspot, rfl, ?_⟩
      intro s hts hst
      obtain rfl : s = t + 1 := by omega
      exact ⟨[], Activation.new (.function name) shadowed, rfl, by rw [htick, hentered,
        List.nil_append]⟩

/-- A micro-step that brings results in front returns from a function, and nothing is pending behind
it. -/
theorem returns (linked : env.program.Linked) (hist : History env h n) {t : Nat} (ht : t ≤ n)
    (hresults : ((h t).tick env).2.results ≠ []) :
    ((h t).tick env).2.pending = none ∧
      ∃ spot waiting name v, ReturnsTo env (h t) spot waiting name v := by
  rcases hacts : ((h t).tick env).2.activations with _ | ⟨act, callers⟩
  · exact absurd (results_of_nil hacts) hresults
  have hreplays := hist.replays linked ht
  rw [results_eq hacts] at hresults
  rw [hacts] at hreplays
  obtain ⟨going, spot, waiting, name, v, callee, hunit, hfront, hback⟩ :=
    hreplays.returns hresults
  refine ⟨?_, spot, waiting, name, v, going, ⟨callee, hunit, hfront⟩, hacts.trans hback⟩
  obtain hnone | ⟨m₁, line, fault, hraise⟩ := (tick_ticked env (h t)).raised going
  · exact hnone
  · -- a fault empties the list in front
    rw [hraise, raise_activations] at hacts
    exact absurd (replay_of_mapFrame hacts) hresults

/-- Results in front were brought by the last micro-step, which returned from a function. -/
theorem returned (linked : env.program.Linked) (hist : History env h n) {t : Nat} (ht : t ≤ n)
    (hresults : (h t).results ≠ []) :
    (h t).pending = none ∧ ∃ j spot waiting name v, j < t ∧
      ReturnsTo env (h j) spot waiting name v ∧ h (j + 1) = ((h j).tick env).2 ∧
      ∀ s, j < s → s ≤ t → (h s).activations = spot.units (waiting ++ [v]) := by
  induction t with
  | zero =>
    obtain ⟨scope, world, hstart⟩ := hist.start
    rw [hstart] at hresults
    exact absurd rfl hresults
  | succ t ih =>
    obtain ⟨hsame, hpending⟩ | htick := (hist.acts t (by omega)).cases_position
    · -- the owner has done something that leaves the position alone
      have hbefore : (h t).results ≠ [] := by
        unfold results at hresults ⊢
        rwa [hsame] at hresults
      obtain ⟨hnone, j, spot, waiting, name, v, hj, hreturns, hmade, hstays⟩ :=
        ih (by omega) hbefore
      refine ⟨hpending.trans hnone, j, spot, waiting, name, v, by omega, hreturns, hmade, ?_⟩
      intro s hjs hst
      by_cases hs : s = t + 1
      · rw [hs, hsame]
        exact hstays t hj (Nat.le_refl t)
      · exact hstays s hjs (by omega)
    -- a micro-step leaves results in front only by returning
    · rw [htick] at hresults
      obtain ⟨hnone, spot, waiting, name, v, hreturns⟩ :=
        hist.returns linked (by omega) hresults
      refine ⟨htick ▸ hnone, t, spot, waiting, name, v, by omega, hreturns, htick, ?_⟩
      intro s hts hst
      obtain rfl : s = t + 1 := by omega
      rw [htick]
      exact hreturns.back

end History

/-- **A list of results never reaches another statement.** At every moment of a run:
* lists that are put aside are empty, and so are those under the frame in front of a unit;
* if the list in front is not empty, the last micro-step was the return of a function, and what
  comes next is the evaluation that stopped for this function, at the same position of the same
  unit, which has waited there all the time;
* so the list in front is empty behind every micro-step but the return of a function. -/
theorem results_confined {script : Block} (hprogram : env.program = Program.link script)
    {h : Nat → Machine σ} {n : Nat} (hist : History env h n) :
    (∀ act ∈ (h n).activations, Frame.Clean act.frames.tail ∧
      ∀ stack ∈ act.subroutines, Frame.Clean stack) ∧
    ((h n).results ≠ [] → (h n).pending = none ∧
      ∃ i j spot waiting name v, i < j ∧ j < n ∧
        StopsAt env (h i) spot waiting name ∧ h (i + 1) = ((h i).tick env).2 ∧
        (∀ t, i < t → t ≤ j → ∃ inner callee, callee.unit = .function name ∧
          (h t).activations = inner ++ callee :: spot.units waiting) ∧
        ReturnsTo env (h j) spot waiting name v ∧ h (j + 1) = ((h j).tick env).2 ∧
        ∀ t, j < t → t ≤ n → (h t).activations = spot.units (waiting ++ [v])) ∧
    ∀ t, t < n → h (t + 1) = ((h t).tick env).2 →
      (¬ ∃ spot waiting name v, ReturnsTo env (h t) spot waiting name v) →
        (h (t + 1)).results = [] := by
  have linked : env.program.Linked := hprogram ▸ Program.linked_link script
  refine ⟨?_, ?_, ?_⟩
  · intro act hact
    obtain ⟨books, haudited⟩ := hist.audited (Nat.le_refl n)
    have hbehind := (haudited.balanced linked).behind act hact
    exact ⟨hbehind.below, hbehind.aside⟩
  · intro hresults
    obtain ⟨hnone, j, spot, waiting, name, v, hj, hreturns, hmade, hstays⟩ :=
      hist.returned linked (Nat.le_refl n) hresults
    obtain ⟨callee, hunit, hfront⟩ := hreturns.function
    -- the unit that the value goes to has waited, so it stopped for the function that returns
    have hwaits : (h j).activations = [] ++ callee :: _ :: spot.callers := hfront
    obtain ⟨i, spot', waiting', name', hi, hstops, hcalled, hspot, hname, hwaited⟩ :=
      hist.stopped linked (by omega) hwaits
    obtain rfl : name' = name := CodeUnit.function.inj (hname.symm.trans hunit)
    obtain ⟨rfl, rfl⟩ := Spot.units_inj hspot
    exact ⟨hnone, i, j, spot, waiting, name', v, hi, hj, hstops, hcalled, hwaited, hreturns,
      hmade, hstays⟩
  · intro t ht htick hother
    rw [htick]
    by_cases hresults : ((h t).tick env).2.results = []
    · exact hresults
    · exact absurd (hist.returns linked (by omega) hresults).2 hother

/-- The test of a loop calls two functions. -/
def testing : Block :=
  .mk
    [.function "f" [] (.mk [.ret (some (.bool true 2)) 2] 1 3) 1,
      .function "g" [] (.mk [.ret (some (.bool false 5)) 5] 4 6) 4,
      .cycle (.binary (.call "f" [] 7) .and (.call "g" [] 7) 7) (.mk [.noop 8] 7 9) 7]
    0 10

/-- Behind the return of the second function the list has a value of each, and both go to the
test. -/
theorem results_confined_testing :
    let env : Setting Unit := ⟨Program.link testing, .default, .null ""⟩
    let h : Nat → Machine Unit := fun t => (Machine.new (.ofInputs []) ()).ticks env t
    History env h 7 ∧ (h 7).results.length = 2 ∧
    ∃ i j spot waiting name v, i < j ∧ j < 7 ∧ spot.kind = .cycle ⟨[], 2⟩ .test ∧
      waiting.length = 1 ∧ StopsAt env (h i) spot waiting name ∧
      ReturnsTo env (h j) spot waiting name v ∧
      (h 7).activations = spot.units (waiting ++ [v]) := by
  intro env h
  have hist : History env h 7 := History.ticks env (.ofInputs []) () 7
  have hlength : (h 7).results.length = 2 := by decide +kernel
  have hseen : (h 7).activations.map (fun act => act.frames.map Frame.kind) =
      [[.cycle ⟨[], 2⟩ .test, .block [] 3]] := by
    decide +kernel
  have hprogram : env.program = Program.link testing := rfl
  -- from here on only these facts count, not how the machine has come there
  clear_value h env
  have hresults : (h 7).results ≠ [] := by
    intro hnil
    rw [hnil] at hlength
    cases hlength
  obtain ⟨-, hfront, -⟩ := results_confined hprogram hist
  obtain ⟨-, i, j, spot, waiting, name, v, hij, hj, hstops, -, -, hreturns, -, hstays⟩ :=
    hfront hresults
  have hnow := hstays 7 hj (Nat.le_refl 7)
  have hkind : spot.kind = .cycle ⟨[], 2⟩ .test := by
    simp only [hnow, Spot.units, List.map_cons, List.cons.injEq] at hseen
    exact hseen.1.1
  have hwaiting : waiting.length = 1 := by
    rw [results_eq hnow] at hlength
    simpa [Activation.replay] using hlength
  exact ⟨hist, hlength, i, j, spot, waiting, name, v, hij, hj, hkind, hwaiting, hstops,
    hreturns, hnow⟩

end Machine

end Stepwise
