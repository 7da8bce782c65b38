import Stepwise.Proofs.Execute
import Stepwise.Proofs.Simulation.Evaluation

/-!
# Simple statements

A simple statement stops for calls, any number of times, and then does what it does. The structured
meaning of its evaluation is the one of headers; what is left is the effect.

The last pass and the effect are one micro-step of the machine, and it shows a record with the line
at which the run goes on. The structured meaning knows that line without a stack: it is the next one
of the block, or the line that the surroundings gave it for a return. That the two agree is part of
what is shown (`apply_finish`).

The statement behind starts with an empty replay list, as it should, because a statement that is
done keeps no results (`Stmt.execute_replay`).
-/

namespace Stepwise

variable {σ : Type} {env : Setting σ}

namespace BigStep

open Machine

variable {run : Around → Block → Meaning σ} {s : Site} {around : Around}
  {path : BlockPath} {b : Block} {i : Nat} {stmt : Stmt} {below : List Frame}

theorem simple_tick (hblock : env.program.block? s.unit path = some b)
    (hstmt : b.body[i]? = some stmt) (hsimple : stmt.isStructured = false) (below : List Frame)
    {p : Progress σ} {replay : List Value} {line : Line} {result : Except Interrupt Effect}
    {replay' : List Value} {store : Store σ}
    (hpass : simplePass env stmt replay p.store = some (line, result, replay', store)) :
    line = stmt.line ∧
    (p.machine (s.stack (⟨.block path i, replay⟩ :: below))).tick env =
      match result with
      | .ok effect =>
        ((p.withStore store).machine (s.stack (⟨.block path (i + 1), replay'⟩ :: below))).apply
          env line effect
      | .error cause =>
        (.running, ((p.withStore store).machine
          (s.stack (⟨.block path i, replay'⟩ :: below))).interrupt env line cause) := by
  obtain ⟨⟨outcome, kept, after⟩, hexec, hr⟩ := Option.map_eq_some_iff.mp hpass
  cases hr
  refine ⟨rfl, ?_⟩
  -- the store of the machine is that of the progress, by definition
  have hexec :
      stmt.execute env (p.machine (s.stack (⟨.block path i, replay⟩ :: below))).store replay =
        some ⟨outcome, kept, after⟩ := hexec
  show runBlock env _ s.unit path i replay below = _
  unfold runBlock
  rw [hblock]
  dsimp only
  rw [hstmt]
  dsimp only
  rw [hsimple, hexec]
  cases outcome <;> rfl

/-- The block in front of the statement is the frame in which it is evaluated. -/
theorem simple_frame (hblock : env.program.block? s.unit path = some b)
    (hstmt : b.body[i]? = some stmt) (hsimple : stmt.isStructured = false) :
    PassFrame env s (.block path i) below stmt.line (simplePass env stmt) where
  stops p replay line cause replay' store hpass := (simple_tick hblock hstmt hsimple below hpass).2
  line m replay hm := by
    simp only [nextLine?, hm, Site.stack, hblock, Option.map_some, Block.lineAt, hstmt]
  handler _ := rfl

theorem nextLine?_mapFrame (m : Machine σ) {g : Frame → Frame}
    (hg : ∀ f, (g f).kind = f.kind) :
    (m.mapFrame g).nextLine? env = m.nextLine? env := by
  obtain ⟨store, acts, pending, finished, exitStatus, delay, suspended, cancelled⟩ := m
  cases acts with
  | nil => rfl
  | cons act rest =>
    obtain ⟨u, frames, subs, saved⟩ := act
    cases frames with
    | nil => rfl
    | cons f below => simp only [mapFrame, mapTop, nextLine?, hg]

theorem Site.Fits.nextLine?_ret (hfits : s.Fits env around) (p : Progress σ) (frames : List Frame)
    (v : Option Value) :
    ((p.machine (s.stack frames)).ret v).nextLine? env = some around.back := by
  obtain ⟨u, saved, callers⟩ := s
  cases u with
  | main => exact hfits.back _ (hfits.main rfl).symm
  | function name =>
    have hback := hfits.back ((p.restored saved).machine callers) rfl
    refine Eq.trans ?_ hback
    exact nextLine?_mapFrame (g := fun f => { f with replay := f.replay ++ [v.getD .null] }) _
      fun _ => rfl

/-- What a simple statement asks for is done with its record. Jumps are no cases, since they have no
structured meaning. -/
theorem apply_finish (hfits : s.Fits env around) (hblock : env.program.block? s.unit path = some b)
    (below : List Frame) {line : Line} {effect : Effect} {p p' : Progress σ} {o : Outcome}
    (h : finish env around line (b.lineAt i) effect p = some (o, p')) :
    ∃ r m, (p.machine (s.stack (Frame.block path i :: below))).apply env line effect =
      (.record r, m) ∧ p'.records = p.records ++ [r] ∧
        Arrives s (Frame.block path i :: below) o p' m.settled := by
  -- the line that the record shows is where the block goes on, whatever has changed in the store
  have hnext : ∀ q : Progress σ,
      (q.machine (s.stack (Frame.block path i :: below))).nextLine? env = some (b.lineAt i) := by
    intro q
    show (env.program.block? s.unit path).map (fun b => b.lineAt i) = _
    rw [hblock]
    rfl
  have hrecorded : ∀ (m : Machine σ) (value : Option Value) (next : Line),
      m.nextLine? env = some next →
        m.recorded env line value = (.record ⟨line, value, next⟩, m) := by
    intro m value next hm
    unfold recorded
    rw [hm]
  cases effect with
  | value v =>
    cases h
    exact ⟨_, _, hrecorded _ _ _ (hnext p), rfl, rfl⟩
  | delay ns v =>
    cases h
    exact ⟨_, _, hrecorded _ _ _ (hnext { p with delay := some ns }), rfl, rfl⟩
  | suspend =>
    cases h
    exact ⟨_, _, hrecorded _ _ _ (hnext { p with suspended := true }), rfl, rfl⟩
  | ret v =>
    cases h
    exact ⟨_, _, hrecorded _ _ _ (hfits.nextLine?_ret p _ v), rfl, rfl⟩
  | exit status =>
    cases h
    exact ⟨_, _, hrecorded ((p.machine _).terminate status) status _ rfl, rfl, rfl⟩
  | jump label => cases h
  | sub label => cases h

/-- **Simple statements.** What is left behind the evaluation is the block, at its next
statement. -/
theorem simple_realized (hrun : RunsBlocks env run) (hfits : s.Fits env around)
    (hblock : env.program.block? s.unit path = some b) (hstmt : b.body[i]? = some stmt)
    (hsimple : stmt.isStructured = false) (n : Nat) :
    Realizes env s (Frame.block path i :: below) (Frame.block path (i + 1) :: below)
      (Evaluation.andThen
        (evaluate (call env run around.depth stmt.line) (simplePass env stmt) n [])
        (finish env around stmt.line (b.lineAt (i + 1)))) := by
  refine .evaluated hrun hfits (simple_frame hblock hstmt hsimple)
    (fun o p m ho h => (arrives_cons ho fun _ _ _ => rfl).mpr h) ?_
  intro effect q last line replay' store hpass hlast o p' hk
  -- the statement behind starts with an empty replay list
  have hkept : replay' = [] := by
    obtain ⟨r, hexec, hr⟩ := Option.map_eq_some_iff.mp hpass
    simp only [Prod.mk.injEq] at hr
    obtain ⟨-, hresult, rfl, -⟩ := hr
    obtain hnil | ⟨hsame, hnever⟩ := Stmt.execute_replay hexec hresult
    · exact hnil
    · obtain rfl | ⟨replay₁, store₁, line₁, name, args, kept, store₂, hcall⟩ := hlast
      · exact hsame
      · obtain ⟨r', hexec', hr'⟩ := Option.map_eq_some_iff.mp hcall
        simp only [Prod.mk.injEq] at hr'
        exact absurd hr'.2.1 (hnever _ _ _ _ _ hexec')
  subst hkept
  obtain ⟨rfl, htick⟩ := simple_tick hblock hstmt hsimple below hpass
  obtain ⟨r, m, happly, hrecords, harrives⟩ :=
    apply_finish (i := i + 1) hfits hblock below hk
  exact ⟨_, ⟨[r], hrecords, .tick_record rfl (htick.trans happly)⟩, harrives⟩

end BigStep

end Stepwise
