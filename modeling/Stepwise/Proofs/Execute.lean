import Stepwise.Machine.Tick

/-!
# Statements and headers

`execute_eq` is what there is to know of a simple statement: an evaluation, which may be missing,
and then a part that writes to the store. So a statement that is done keeps no results of calls, and
the statement behind it starts with an empty replay list.

Most of what is shown about statements does not depend on their kind: that only an evaluation stops
for a function, that it may be repeated, that writing comes last. Modules that need no more than
that split a statement by `execute_eq` into two cases, and not into twenty. Where the kind matters,
what a statement asks for is looked up in its own case (`Proofs/Simulation/Simple`).
-/

namespace Stepwise

variable {σ : Type} {env : Setting σ}

/-! ## Evaluations in a store

A store is evaluated in and written to, in this order. What was evaluated may have stopped or
failed, and then nothing is written. -/

/-- An evaluation in a store, once it is known what it comes to. The list of results is kept or
dropped as `keeps` says, and of the store only the world changes. -/
theorem Store.run_eq {β : Type} {store : Store σ} {replay : List Value} {keeps : β → Bool}
    {e : EvalContext σ → StateM (EvalState σ) β} {b : β} {st : EvalState σ}
    (h : e (env.context store) ⟨replay, 0, store.world⟩ = (b, st)) :
    store.run env replay keeps e =
      (b, if keeps b then st.replay else [], { store with world := st.world }) := by
  simp only [Store.run, StateT.run, h]

namespace Evaluated

variable {α β : Type}

theorem commit_replay (e : Evaluated σ α) (k : α → Store σ → Except Fault β × Store σ) :
    (e.commit k).replay = e.replay := by
  unfold commit
  split
  · rfl
  · split <;> rfl

/-- Only the evaluation itself can stop for a call. What is done with its value writes to the store,
and can fail with a fault but not ask for a function. -/
theorem result_of_commit_call {e : Evaluated σ α}
    {k : α → Store σ → Except Fault β × Store σ} {name : String} {args : List Value}
    (h : (e.commit k).result = .error (.call name args)) :
    e.result = .error (.call name args) := by
  unfold commit at h
  split at h
  · rename_i i hi
    cases h
    exact hi
  · split at h <;> cases h

theorem result_of_commit_ok {e : Evaluated σ α}
    {k : α → Store σ → Except Fault β × Store σ} {b : β}
    (h : (e.commit k).result = .ok b) : ∃ a, e.result = .ok a := by
  unfold commit at h
  split at h
  · cases h
  · rename_i a ha
    exact ⟨a, ha⟩

end Evaluated

/-- An evaluation that has a value keeps no results of calls. They were for its own repetition. -/
theorem Store.eval_replay_ok {α : Type} {store : Store σ} {replay : List Value}
    {e : EvalContext σ → Eval σ α} {a : α} (h : (store.eval env replay e).result = .ok a) :
    (store.eval env replay e).replay = [] := by
  unfold Store.eval Store.run at h ⊢
  cases hrun : (e (env.context store)).run.run ⟨replay, 0, store.world⟩ with
  | mk result after =>
    rw [hrun] at h
    obtain rfl : result = .ok a := h
    rfl

/-! ## Simple statements -/

/-- **A simple statement is an evaluation and a commit**, or a commit alone. Evaluation and commit
are fixed by the statement; only the store and the list come from the machine. -/
theorem Stmt.execute_eq (env : Setting σ) {stmt : Stmt} (hs : stmt.isStructured = false)
    (hc : stmt.isComment = false) :
    (∃ (α : Type) (e : EvalContext σ → Eval σ α) (k : α → Store σ →
      Except Fault Effect × Store σ), ∀ store replay, stmt.execute env store replay =
        some ((store.eval env replay e).commit k)) ∨
    (∃ k : Unit → Store σ → Except Fault Effect × Store σ,
      ∀ store replay,
        stmt.execute env store replay = some ((store.pure replay ()).commit k)) := by
  cases stmt with
  | compound => cases hs
  | condition => cases hs
  | cycle => cases hs
  | doCycle => cases hs
  | retry => cases hs
  | tryCatch => cases hs
  | included => cases hs
  | comment => cases hc
  | doc => cases hc
  -- `execute` is written this way, so each equation holds by definition
  | assign => exact .inl ⟨_, _, _, fun _ _ => rfl⟩
  | const => exact .inl ⟨_, _, _, fun _ _ => rfl⟩
  -- a commit alone has to be given, since no evaluation determines it
  | label => exact .inr ⟨fun _ s => (.ok (.value none), s), fun _ _ => rfl⟩
  | noop => exact .inr ⟨fun _ s => (.ok (.value none), s), fun _ _ => rfl⟩
  | function => exact .inr ⟨fun _ s => (.ok (.value none), s), fun _ _ => rfl⟩
  | goto name => exact .inr ⟨fun _ s => (.ok (.jump name), s), fun _ _ => rfl⟩
  | gosub name => exact .inr ⟨fun _ s => (.ok (.sub name), s), fun _ _ => rfl⟩
  | ret value =>
    cases value with
    | none => exact .inr ⟨fun _ s => (.ok (.ret none), s), fun _ _ => rfl⟩
    | some e => exact .inl ⟨_, _, _, fun _ _ => rfl⟩
  | exit status =>
    cases status with
    | none => exact .inr ⟨fun _ s => (.ok (.exit none), s), fun _ _ => rfl⟩
    | some e => exact .inl ⟨_, _, _, fun _ _ => rfl⟩
  | error => exact .inl ⟨_, _, _, fun _ _ => rfl⟩
  | throw => exact .inl ⟨_, _, _, fun _ _ => rfl⟩
  | delay => exact .inl ⟨_, _, _, fun _ _ => rfl⟩
  | suspend => exact .inr ⟨fun _ s => (.ok .suspend, s), fun _ _ => rfl⟩
  | status => exact .inl ⟨_, _, _, fun _ _ => rfl⟩
  | declareWeb name params outputs calledAs url =>
    cases url with
    | none =>
      exact .inr ⟨fun _ s => (.ok (.value none),
        { s with scope :=
          s.scope.declareWeb (calledAs.getD name) ⟨name, params, outputs, none⟩ }),
        fun _ _ => rfl⟩
    | some e => exact .inl ⟨_, _, _, fun _ _ => rfl⟩
  | call => exact .inl ⟨_, _, _, fun _ _ => rfl⟩
  | input => exact .inr ⟨_, fun _ _ => rfl⟩

/-- Structured statements and comments are never executed. -/
theorem Stmt.simple_of_execute {stmt : Stmt} {store : Store σ} {replay : List Value}
    {r : Evaluated σ Effect} (h : stmt.execute env store replay = some r) :
    stmt.isStructured = false ∧ stmt.isComment = false := by
  cases stmt <;> first | exact ⟨rfl, rfl⟩ | cases h

/-- Of the statements without blocks, comments are the only ones that cannot be executed. -/
theorem Stmt.isComment_of_execute {stmt : Stmt} {store : Store σ} {replay : List Value}
    (hs : stmt.isStructured = false) (h : stmt.execute env store replay = none) :
    stmt.isComment = true := by
  cases hc : stmt.isComment with
  | true => rfl
  | false =>
    obtain ⟨α, e, k, hexec⟩ | ⟨k, hexec⟩ := stmt.execute_eq env hs hc
    · rw [hexec] at h
      cases h
    · rw [hexec] at h
      cases h

/-- What a statement that is done keeps: nothing, or what there was if it never stops for a call. In
the second case the list was empty, but that is a matter of the machine and not of the statement. -/
theorem Stmt.execute_replay {stmt : Stmt} {store : Store σ} {replay : List Value}
    {r : Evaluated σ Effect} {effect : Effect} (h : stmt.execute env store replay = some r)
    (hok : r.result = .ok effect) :
    r.replay = [] ∨
      r.replay = replay ∧
        ∀ store' replay' r' name args, stmt.execute env store' replay' = some r' →
          r'.result ≠ .error (.call name args) := by
  obtain ⟨hs, hc⟩ := Stmt.simple_of_execute h
  obtain ⟨α, e, k, hexec⟩ | ⟨k, hexec⟩ := stmt.execute_eq env hs hc
  · left
    rw [hexec] at h
    cases h
    obtain ⟨a, ha⟩ := Evaluated.result_of_commit_ok hok
    rw [Evaluated.commit_replay, Store.eval_replay_ok ha]
  · right
    rw [hexec] at h
    cases h
    refine ⟨Evaluated.commit_replay _ _, ?_⟩
    intro store' replay' r' name args h' hcall
    rw [hexec] at h'
    cases h'
    cases Evaluated.result_of_commit_call hcall

namespace Machine

/-! ## Choosing a branch -/

/-- One test after the other. The line is that of the test at which the search has ended. -/
theorem chooseBranch_cons (c : EvalContext σ) (line : Line) (k : Nat) (test : Expr) (block : Block)
    (rest : List Branch) (st : EvalState σ) :
    chooseBranch c line k (.mk test block :: rest) st =
      match (Eval.expr c test).run st with
      | (.error i, st') => ((headerLine test line, .error i), st')
      | (.ok v, st') =>
        if v.isTruthy then ((headerLine test line, .ok (some k)), st')
        else chooseBranch c line (k + 1) rest st' := by
  rw [chooseBranch]
  simp only [bind, StateT.bind, Branch.test]
  cases (Eval.expr c test).run st with
  | mk result st' =>
    cases result with
    | error i => rfl
    | ok v =>
      dsimp only
      split <;> rfl

/-- The branch that is chosen is one of the condition. The search numbers branches from `k` on,
since it goes on with the rest of them. -/
theorem chooseBranch_some {c : EvalContext σ} {line testLine : Line} {k i : Nat}
    {branches : List Branch} {st st' : EvalState σ}
    (h : chooseBranch c line k branches st = ((testLine, .ok (some i)), st')) :
    ∃ j branch, i = k + j ∧ branches[j]? = some branch := by
  induction branches generalizing k st with
  | nil => cases h
  | cons branch rest ih =>
    obtain ⟨test, block⟩ := branch
    rw [chooseBranch_cons] at h
    cases hrun : (Eval.expr c test).run st with
    | mk result st₁ =>
      rw [hrun] at h
      cases result with
      | error e => cases h
      | ok v =>
        dsimp only at h
        split at h
        · cases h
          exact ⟨0, .mk test block, rfl, rfl⟩
        · obtain ⟨j, branch, rfl, hj⟩ := ih h
          exact ⟨j + 1, branch, by omega, hj⟩

end Machine

end Stepwise
