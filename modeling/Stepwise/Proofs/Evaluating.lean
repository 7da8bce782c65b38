import Stepwise.Proofs.Deciders
import Stepwise.Proofs.Execute

/-!
# What statements and headers evaluate

A frame in front evaluates the parts of a simple statement, or a header. `Evaluation` says which, as
trees of calls, so that it makes sense to ask which calls are reached in a scope. Where an
evaluation stops for a function, its list holds a result for each call before (`Stops`).

The machine evaluates in many places, and each takes its own way from an expression to what it does
with the value. For the list of results only the calls matter. So a statement is reduced to what it
evaluates, and with the two lemmas of this module the rest of the theory of replay lists goes by
`Evaluation` alone: `Stmt.execute_plays` says that a statement evaluates its `evaluation`, and
`same_name` says that in two scopes that agree on the deciders calls at the same place have the same
name. `Proofs/ReplayLists` has the invariant of the lists, and `Proofs/Work` counts what is
evaluated.
-/

namespace Stepwise

/-! ## What a frame evaluates -/

/-- The forms of evaluation: what a simple statement evaluates before it writes, or a header before
it decides. -/
inductive Evaluation where
  | nothing
  | value (e : Expr)
  | values (es : List Expr)
  /-- The message of an error, and its code if there is one. -/
  | error (message : Expr) (code : Option Expr)
  | call (name : String) (args : List Expr)
  | assign (targets : List Expr) (op : AssignOp) (values : List Expr)
  | branches (branches : List Branch)

namespace Evaluation

/-- The names of the calls that are reached in a scope, with these results. Whether missing outputs
are a fault plays a role, since an assignment stops there. -/
def asks (strict : Bool) (s : Scope) (results : List Value) : Evaluation → List String
  | nothing => []
  | value e => (CallTree.expr s e).asks results
  | values es => (CallTree.exprs s es).asks results
  | error message code =>
    (do
      let m ← CallTree.expr s message
      let k ← CallTree.option s code
      return (m, k)).asks results
  | call name args => (CallTree.callOf s name args).asks results
  | assign targets op sources => (CallTree.plan s targets op sources strict).asks results
  | branches bs => (CallTree.chooseBranch s 0 bs).asks results

def deciders : Evaluation → List String
  | nothing => []
  | value e => e.deciders
  | values es => Expr.listDeciders es
  | error message code => message.deciders ++ Expr.listDeciders code.toList
  | call _ args => Expr.listDeciders args
  | assign targets _ sources => Expr.listDeciders sources ++ Expr.listDeciders targets
  | branches bs => Branch.deciders bs

theorem asks_prefix (strict : Bool) (s : Scope) (e : Evaluation) (vs more : List Value) :
    e.asks strict s vs <+: e.asks strict s (vs ++ more) := by
  cases e with
  | nothing => exact List.prefix_rfl
  | _ => exact CallTree.asks_prefix _ vs more

/-- **In scopes that agree on the deciders, calls at the same place have the same name.** The
results before that place are the same in both; all other variables may have an influence on the
arguments, but not on which function is called. -/
theorem same_name {strict : Bool} {s s' : Scope} {e : Evaluation}
    (h : Scope.AgreeOn e.deciders s s') {vs : List Value} {i : Nat} {n n' : String}
    (hn : (e.asks strict s vs)[i]? = some n) (hn' : (e.asks strict s' vs)[i]? = some n') :
    n = n' := by
  cases e with
  | nothing => cases hn
  | value e => exact (CallTree.expr_agree e h).asks hn hn'
  | values es => exact (CallTree.exprs_agree es h).asks hn hn'
  | error message code =>
    obtain ⟨hmessage, hcode⟩ := Scope.agreeOn_append.mp h
    have hagree : CallTree.Agree.Anyhow
        (do
          let m ← CallTree.expr s message
          let k ← CallTree.option s code
          return (m, k))
        (do
          let m ← CallTree.expr s' message
          let k ← CallTree.option s' code
          return (m, k)) :=
      (CallTree.expr_agree message hmessage).bind fun _ _ _ =>
        (CallTree.option_agree hcode).bind fun _ _ _ => .done trivial
    exact hagree.asks hn hn'
  | call name args => exact (CallTree.callOf_agree name h).asks hn hn'
  | assign targets op sources => exact (CallTree.plan_agree op strict h).asks hn hn'
  | branches bs => exact (CallTree.chooseBranch_agree 0 h).asks hn hn'

end Evaluation

/-- What a simple statement evaluates. Structured statements have their headers evaluated by frames
of their own, so there is nothing here for them. -/
def Stmt.evaluation : Stmt → Evaluation
  | .assign targets op values _ => .assign targets op values
  | .const bindings _ => .values (bindings.map ConstBinding.value)
  | .ret (some e) _ | .exit (some e) _ | .throw e _ | .delay e _ | .status e _
  | .declareWeb _ _ _ _ (some e) _ => .value e
  | .error message code _ => .error message code
  | .call name args _ => .call name args
  | _ => .nothing

/-- What a frame evaluates when it is in front. A body that runs is another frame in front of it, so
in that phase a header evaluates nothing. -/
def FrameKind.evaluation (p : Program) (u : CodeUnit) : FrameKind → Evaluation
  | .block path next =>
    match p.stmt? u ⟨path, next⟩ with
    | some stmt => stmt.evaluation
    | none => .nothing
  | .condition place .test =>
    match p.stmt? u place with
    | some (.condition branches _ _) => .branches branches
    | _ => .nothing
  | .cycle place .test | .doCycle place .test =>
    match p.stmt? u place with
    | some (.cycle test _ _) => .value test
    | some (.doCycle _ test _) => .value test
    | _ => .nothing
  | .retry place .enter _ _ =>
    match p.stmt? u place with
    | some (.retry attempts _ _ _) => .value attempts
    | _ => .nothing
  | .retry place .test _ _ =>
    match p.stmt? u place with
    | some (.retry _ _ (some test) _) => .value test
    | _ => .nothing
  | _ => .nothing

/-! ## Evaluations that stop -/

/-- An evaluation stopped for a function: what was on the list stays, and behind the calls that have
a result comes that of the function. Services and built-ins that were called on the way have put
their results on the list, so it may have grown by several. -/
structure Stops (strict : Bool) (e : Evaluation) (s : Scope) (replay replay' : List Value)
    (name : String) : Prop where
  grown : replay <+: replay'
  asks : ∃ before, e.asks strict s replay' = before ++ [name] ∧ before.length = replay'.length

section

variable {σ α β : Type} {env : Setting σ} {store : Store σ} {replay : List Value}

/-- What comes behind an evaluation and makes no calls changes nothing about the calls. -/
theorem CallTree.asks_bind_done {t : CallTree α} {f : α → CallTree β}
    (hf : ∀ a, ∃ r, f a = .done r) (vs : List Value) : (t >>= f).asks vs = t.asks vs := by
  induction t generalizing vs with
  | done r =>
    cases r with
    | error x => rfl
    | ok a =>
      obtain ⟨r, hr⟩ := hf a
      have hbind : (CallTree.done (.ok a) >>= f) = .done r := hr
      rw [hbind]
      rfl
  | call name args k ih =>
    cases vs with
    | nil => rfl
    | cons v vs => exact congrArg (name :: ·) (ih v vs)

/-- From the tree of an evaluation to the evaluation itself. The tree that is played may have
another result than that of the evaluation, so it is only asked that it has the same calls. -/
theorem Stops.of_play {strict : Bool} {ev : Evaluation} {t : CallTree α} {name : String}
    {args : List Value} {st : EvalState σ}
    (hasks : ∀ vs, ev.asks strict store.scope vs = t.asks vs)
    (h : (t.play (env.context store)).run.run ⟨replay, 0, store.world⟩ =
      (.error (.call name args), st)) : Stops strict ev store.scope replay st.replay name := by
  obtain ⟨hgrown, before, hbefore, hlength⟩ := CallTree.play_stops (Nat.zero_le _) h
  refine ⟨hgrown, before, ?_, hlength⟩
  rw [hasks]
  exact hbefore

theorem Store.run_stops {strict : Bool} {ev : Evaluation} {t : CallTree α}
    {e : EvalContext σ → Eval σ α} (hplay : t.play (env.context store) = e (env.context store))
    (hasks : ∀ vs, ev.asks strict store.scope vs = t.asks vs) {name : String} {args : List Value}
    (h : (store.run env replay Interrupt.isCall fun c => (e c).run).1 = .error (.call name args)) :
    Stops strict ev store.scope replay
      (store.run env replay Interrupt.isCall fun c => (e c).run).2.1 name := by
  rcases hrun : (e (env.context store)).run.run ⟨replay, 0, store.world⟩ with ⟨result, st⟩
  have heq : (store.run env replay Interrupt.isCall fun c => (e c).run) = _ := Store.run_eq hrun
  rw [heq] at h ⊢
  obtain rfl : result = .error (.call name args) := h
  rw [← hplay] at hrun
  exact .of_play hasks hrun

/-! ## Simple statements -/

/-- What a statement evaluates is its `evaluation`; one that evaluates nothing leaves its list
alone. The tree, the evaluation and the commit are those of the statement, which differ in type from
one kind to the next. -/
theorem Stmt.execute_plays {stmt : Stmt} {r : Evaluated σ Effect}
    (h : stmt.execute env store replay = some r) :
    (∃ (α : Type) (t : CallTree α) (e : EvalContext σ → Eval σ α)
      (k : α → Store σ → Except Fault Effect × Store σ),
      (∀ vs, stmt.evaluation.asks env.options.strictOutputs store.scope vs = t.asks vs) ∧
      t.play (env.context store) = e (env.context store) ∧
      r = (store.eval env replay e).commit k) ∨
    stmt.evaluation = .nothing ∧ r.replay = replay ∧
      ∀ name args, r.result ≠ .error (.call name args) := by
  cases stmt with
  -- statements that evaluate something: tree and evaluation are found by unification
  | assign targets op values line =>
    cases h
    exact .inl ⟨_, _, _, _, fun _ => rfl, CallTree.play_plan _ targets op values _, rfl⟩
  | const bindings line =>
    cases h
    exact .inl ⟨_, _, _, _, fun _ => rfl, CallTree.play_exprs _ _, rfl⟩
  | error message code line =>
    cases h
    have hmessage : (CallTree.expr store.scope message).play (env.context store) =
        Eval.expr (env.context store) message := CallTree.play_expr _ message
    have hcode : (CallTree.option store.scope code).play (env.context store) =
        Eval.option (env.context store) code := CallTree.play_option _ code
    refine .inl ⟨_, _, _, _, fun _ => rfl, ?_, rfl⟩
    simp only [CallTree.play_bind, CallTree.play_pure, hmessage, hcode]
  | call name args line =>
    cases h
    exact .inl ⟨_, _, _, _, fun _ => rfl, CallTree.play_callOf _ name args, rfl⟩
  | throw e line =>
    cases h
    exact .inl ⟨_, _, _, _, fun _ => rfl, CallTree.play_expr _ e, rfl⟩
  | delay e line =>
    cases h
    exact .inl ⟨_, _, _, _, fun _ => rfl, CallTree.play_expr _ e, rfl⟩
  | status e line =>
    cases h
    exact .inl ⟨_, _, _, _, fun _ => rfl, CallTree.play_expr _ e, rfl⟩
  -- statements that may have an expression
  | ret value line =>
    cases value with
    | none =>
      cases h
      exact .inr ⟨rfl, rfl, nofun⟩
    | some e =>
      cases h
      exact .inl ⟨_, _, _, _, fun _ => rfl, CallTree.play_expr _ e, rfl⟩
  | exit status line =>
    cases status with
    | none =>
      cases h
      exact .inr ⟨rfl, rfl, nofun⟩
    | some e =>
      cases h
      exact .inl ⟨_, _, _, _, fun _ => rfl, CallTree.play_expr _ e, rfl⟩
  | declareWeb name params outputs calledAs url line =>
    cases url with
    | none =>
      cases h
      exact .inr ⟨rfl, rfl, nofun⟩
    | some e =>
      cases h
      exact .inl ⟨_, _, _, _, fun _ => rfl, CallTree.play_expr _ e, rfl⟩
  -- an input commits without evaluating, and a commit makes no calls
  | input name line =>
    cases h
    refine .inr ⟨rfl, Evaluated.commit_replay _ _, ?_⟩
    intro name args hcall
    cases Evaluated.result_of_commit_call hcall
  -- statements without an expression
  | label | noop | function | goto | gosub | suspend =>
    cases h
    exact .inr ⟨rfl, rfl, nofun⟩
  | _ => cases h

theorem Stmt.execute_stops {stmt : Stmt} {r : Evaluated σ Effect} {name : String}
    {args : List Value} (h : stmt.execute env store replay = some r)
    (hcall : r.result = .error (.call name args)) :
    Stops env.options.strictOutputs stmt.evaluation store.scope replay r.replay name := by
  obtain ⟨α, t, e, k, hasks, hplay, rfl⟩ | ⟨-, -, hnone⟩ := Stmt.execute_plays h
  · rw [Evaluated.commit_replay]
    exact Store.run_stops hplay hasks (Evaluated.result_of_commit_call hcall)
  · exact absurd hcall (hnone name args)

/-- A statement that is done leaves an empty list. One that evaluates nothing does not clear it, and
it was empty before. -/
theorem Stmt.execute_done {stmt : Stmt} {r : Evaluated σ Effect} {effect : Effect}
    (hidle : stmt.evaluation = .nothing → replay = [])
    (h : stmt.execute env store replay = some r) (hok : r.result = .ok effect) : r.replay = [] := by
  obtain ⟨α, t, e, k, -, -, rfl⟩ | ⟨hnothing, hreplay, -⟩ := Stmt.execute_plays h
  · obtain ⟨a, ha⟩ := Evaluated.result_of_commit_ok hok
    rw [Evaluated.commit_replay, Store.eval_replay_ok ha]
  · rw [hreplay, hidle hnothing]

/-! ## Headers

A condition evaluates its tests in turn until one is true, so its tree goes on from test to test. -/

/-- Choosing a branch goes along its tree. The line that goes with the choice is the one thing that
the tree does not have. -/
theorem Machine.chooseBranch_plays {c : EvalContext σ} {line testLine : Line} {k : Nat}
    {branches : List Branch} {st st' : EvalState σ} {result : Except Interrupt (Option Nat)}
    (h : chooseBranch c line k branches st = ((testLine, result), st')) :
    ((CallTree.chooseBranch c.scope k branches).play c).run.run st = (result, st') := by
  induction branches generalizing k st with
  | nil =>
    cases h
    rfl
  | cons branch rest ih =>
    obtain ⟨test, block⟩ := branch
    rw [chooseBranch_cons] at h
    rw [CallTree.chooseBranch, CallTree.play_bind, CallTree.play_expr]
    rcases hrun : (Eval.expr c test).run st with ⟨i | v, st₁⟩
    · rw [hrun] at h
      cases h
      exact run_bind_error hrun
    · rw [hrun] at h
      refine (run_bind_ok hrun).trans ?_
      dsimp only at h ⊢
      split at h
      · rename_i htrue
        cases h
        rw [if_pos htrue]
        rfl
      · rename_i hfalse
        rw [if_neg hfalse]
        exact ih h

theorem Machine.evalTest_stops {m : Machine σ} {test : Expr} {name : String} {args : List Value}
    (strict : Bool) (h : (m.evalTest env replay test).1 = .error (.call name args)) :
    Stops strict (.value test) m.scope replay (m.evalTest env replay test).2.1 name := by
  have hplay : (do return (← CallTree.expr m.store.scope test).isTruthy : CallTree Bool).play
      (env.context m.store) = do return (← Eval.expr (env.context m.store) test).isTruthy := by
    rw [CallTree.play_bind]
    exact congrArg (· >>= _) (CallTree.play_expr (env.context m.store) test)
  refine Store.run_stops hplay (fun vs => ?_) h
  exact (CallTree.asks_bind_done (fun v => ⟨_, rfl⟩) vs).symm

end

end Stepwise
