import Stepwise.Proofs.Direct

/-!
# Replay is direct evaluation

An evaluation with a replay list stops for every function and starts again from the left. **It comes
to what direct evaluation comes to**, with one round more than there are calls of functions, and
over all its rounds it asks the host what direct evaluation asks it, in the same order.

Both evaluators are built from calls, one after the other. `Matches` is this: two evaluations make
the same calls and end in the same way. The invariant of the rounds is then about a single call
(`Eval.rounds_eq`): with the results of all earlier calls on the list, evaluation from the left
comes to the call that is next, and has not asked the host anything.

## Layout

The first section goes through the two evaluators construct by construct, and is the only one that
knows of expressions. The second looks at one call that is not on the list: both evaluators ask the
same service, or the clock, or stop, or call (`Ends`). The third has the rounds, by induction on
`Matches`.

A host is a state and functions on it, so "what it was asked" cannot be read off a host. Direct
evaluation writes it down, and the other one is run on a host with a log as well (`Host.logged`).
The two runs differ in the host only, which is why `Matches` is between evaluations on different
hosts, related by `Mirrors`. `Proofs/CallTree`, `Proofs/Decomposition` and `Proofs/Ticked` use the
equations about running a `bind` from here.
-/

namespace Stepwise

variable {σ τ : Type} {c : EvalContext σ} {host : Host τ} {f : Functions}

/-- Two evaluations that make the same calls, with the same results if the calls have the same. The
results are bound by the rule for calls, so nothing is said about what a call comes to. -/
inductive Matches (c : EvalContext σ) (host : Host τ) (f : Functions) {α : Type} :
    Eval τ α → Direct σ α → Prop where
  | done (r : Except Fault α) : Matches c host f (Eval.ofExcept r) (Direct.ofExcept r)
  | call (name : String) (args : List Value) {k : Value → Eval τ α}
      {k' : Value → Direct σ α}
      (rest : ∀ v, Matches c host f (k v) (k' v)) :
      Matches c host f (Eval.invoke (c.withHost host) name args >>= k)
        (Direct.invoke c f name args >>= k')

namespace Matches

variable {α β : Type}

theorem pure (a : α) : Matches c host f (Pure.pure a) (Pure.pure a) := .done (.ok a)

theorem fault (x : Fault) : Matches c host f (Eval.fault x : Eval τ α) (throw x) :=
  .done (.error x)

/-- Sequencing. It is all that the evaluators are made of, besides calls and results. -/
theorem bind {e : Eval τ α} {d : Direct σ α} {k : α → Eval τ β} {k' : α → Direct σ β}
    (h : Matches c host f e d) (hk : ∀ a, Matches c host f (k a) (k' a)) :
    Matches c host f (e >>= k) (d >>= k') := by
  induction h with
  | done r =>
    cases r with
    | ok a => exact hk a
    | error x => exact .fault x
  -- the call comes first in either grouping
  | call name args rest ih =>
    rw [bind_assoc, bind_assoc]
    exact .call name args ih

theorem invoke (name : String) (args : List Value) :
    Matches c host f (Eval.invoke (c.withHost host) name args) (Direct.invoke c f name args) := by
  have h : Matches c host f (Eval.invoke (c.withHost host) name args >>= Pure.pure)
      (Direct.invoke c f name args >>= Pure.pure) := .call name args pure
  rwa [bind_pure, bind_pure] at h

/-! ## The two evaluators match -/

-- the induction is on the expression; each operand is one `bind`
mutual

/-- An expression. Operators that decide early are split on the value of their left side, which is
the same on both sides. -/
theorem expr : ∀ e : Expr, Matches c host f (Eval.expr (c.withHost host) e) (Direct.expr c f e)
  | .num x _ => pure (Value.num x)
  | .bool b _ => pure (Value.bool b)
  | .null _ => pure Value.null
  | .noop _ => pure Value.null
  | .string s _ => pure (Value.str s)
  | .var name _ => .done (c.scope.get name)
  | .binary left op right line => by
    cases op with
    | and =>
      rw [Eval.expr, Direct.expr]
      refine (expr left).bind fun l => ?_
      dsimp only
      split
      · exact (expr right).bind fun r => pure _
      · exact pure _
    | or =>
      rw [Eval.expr, Direct.expr]
      refine (expr left).bind fun l => ?_
      dsimp only
      split
      · exact pure _
      · exact (expr right).bind fun r => pure _
    -- the other operators evaluate both sides, which the equations of `expr` ask to be told
    | _ =>
      rw [Eval.expr, Direct.expr]
      · exact (expr left).bind fun l => (expr right).bind fun r => .done _
      · nofun
      · nofun
  | .unary op operand line => by
    rw [Eval.expr, Direct.expr]
    exact (expr operand).bind fun v => .done _
  | .field object attr attrLine line => by
    rw [Eval.expr, Direct.expr]
    exact (expr object).bind fun v => .done _
  | .index object index line => by
    rw [Eval.expr, Direct.expr]
    exact (expr object).bind fun v => (expr index).bind fun i => .done _
  | .list items line => by
    rw [Eval.expr, Direct.expr]
    exact (exprs items).bind fun vs => pure _
  | .call name args line => by
    rw [Eval.expr, Direct.expr]
    exact (exprs args).bind fun vs => invoke name vs

theorem exprs : ∀ es : List Expr,
    Matches c host f (Eval.exprs (c.withHost host) es) (Direct.exprs c f es)
  | [] => pure []
  | e :: rest => by
    rw [Eval.exprs, Direct.exprs]
    exact (expr e).bind fun v => (exprs rest).bind fun vs => pure _

end

theorem target : ∀ e : Expr,
    Matches c host f (Assign.target (c.withHost host) e) (Direct.target c f e)
  | .var name _ => pure (Target.var name)
  | .field object attr attrLine line => by
    rw [Assign.target, Direct.target]
    exact (target object).bind fun t => pure _
  | .index object index line => by
    rw [Assign.target, Direct.target]
    refine (target object).bind fun t => (expr index).bind fun i => ?_
    exact (Matches.done (Assign.keyOf i)).bind fun key => pure _
  | .num .. | .bool .. | .null .. | .string .. | .binary .. | .unary .. | .list .. | .call ..
  | .noop .. => fault _

/-- The values of an assignment, and for a decomposition the outputs of one response. The signature
that decides on this comes from the scope, and the host has no part in it. -/
theorem sources (targets values : List Expr) (strict : Bool) :
    Matches c host f (Assign.sources (c.withHost host) targets values strict)
      (Direct.sources c f targets values strict) := by
  have hdecomposition : Assign.decomposition? (c.withHost host) targets values =
      Assign.decomposition? c targets values := rfl
  unfold Assign.sources Direct.sources
  split
  · exact (exprs values).bind fun vs => pure _
  rw [hdecomposition]
  cases Assign.decomposition? c targets values with
  | none => exact fault _
  | some found =>
    obtain ⟨name, args, signature⟩ := found
    dsimp only
    rw [Eval.call, bind_assoc]
    refine (exprs args).bind fun vs => (invoke name vs).bind fun response => ?_
    cases strict with
    | false => exact pure _
    | true =>
      cases Assign.missingOutputs name (Assign.outputsFor signature response targets.length) with
      | nil => exact pure _
      | cons m rest => exact fault _

theorem bindings (op : AssignOp) : ∀ pairs : List (Expr × Value),
    Matches c host f (Assign.bindings (c.withHost host) op pairs) (Direct.bindings c f op pairs)
  | [] => pure []
  | (e, v) :: rest => by
    rw [Assign.bindings, Direct.bindings]
    refine (target e).bind fun t => ?_
    cases op.binary? with
    | none => exact (pure v).bind fun v => (bindings op rest).bind fun more => pure _
    | some bin => exact (Matches.done _).bind fun v => (bindings op rest).bind fun more => pure _

theorem plan (targets : List Expr) (op : AssignOp) (values : List Expr) (strict : Bool) :
    Matches c host f (Assign.plan (c.withHost host) targets op values strict)
      (Direct.plan c f targets op values strict) := by
  unfold Assign.plan Direct.plan
  refine (sources targets values strict).bind fun found => ?_
  obtain ⟨vs, missing⟩ := found
  exact (bindings op (targets.zip vs)).bind fun bound => pure _

end Matches

/-! ## One call -/

section

variable {ε S α β : Type}

theorem run_bind_ok {e : ExceptT ε (StateM S) α} {k : α → ExceptT ε (StateM S) β}
    {s s' : S} {a : α} (h : e.run.run s = (.ok a, s')) :
    (e >>= k).run.run s = (k a).run.run s' := by
  rw [ExceptT.run_bind, StateT.run_bind, h]
  rfl

theorem run_bind_error {e : ExceptT ε (StateM S) α}
    {k : α → ExceptT ε (StateM S) β} {s s' : S} {x : ε} (h : e.run.run s = (.error x, s')) :
    (e >>= k).run.run s = (.error x, s') := by
  rw [ExceptT.run_bind, StateT.run_bind, h]
  rfl

theorem run_get_bind (k : S → ExceptT ε (StateM S) β) (s : S) :
    (get >>= k).run.run s = (k s).run.run s := rfl

end

/-- A host that answers as another does. `Sees` relates what they remember, and what the other was
asked. With equality it is the host itself, and with a log the host that keeps one. -/
structure Mirrors (host : Host τ) (base : Host σ) (Sees : τ → σ → List Asked → Prop) :
    Prop where
  service : ∀ (request : Request) {t : τ} {w : σ} {asked : List Asked}, Sees t w asked →
    (host.invoke request t).1 = (base.invoke request w).1 ∧
      Sees (host.invoke request t).2 (base.invoke request w).2 (asked ++ [.service request])
  clock : ∀ {t : τ} {w : σ} {asked : List Asked}, Sees t w asked →
    (host.now t).1 = (base.now w).1 ∧ Sees (host.now t).2 (base.now w).2 (asked ++ [.clock])

/-- Two evaluations that come to the same result, without the replay list and without functions.
Calls of services and builtins are such. -/
def Answers (Sees : τ → σ → List Asked → Prop) (e : Eval τ Value)
    (d : Direct σ Value) : Prop :=
  ∀ (replay : List Value) (cursor : Nat) (t : τ) (s : DirectState σ), Sees t s.world s.asked →
    ∃ r t' s',
      e.run.run ⟨replay, cursor, t⟩ = (r.mapError .fault, ⟨replay, cursor, t'⟩) ∧
      d.run.run s = (r, s') ∧ Sees t' s'.world s'.asked ∧ s'.calls = s.calls

variable {Sees : τ → σ → List Asked → Prop}

theorem answers_ofExcept (r : Except Fault Value) :
    Answers Sees (Eval.ofExcept r) (Direct.ofExcept r) := by
  intro replay cursor t s hs
  refine ⟨r, t, s, ?_, ?_, hs, rfl⟩
  · cases r <;> rfl
  · cases r <;> rfl

theorem run_ask {α : Type} (question : Asked) (answer : σ → α × σ) (s : DirectState σ) :
    (Direct.ask question answer).run.run s =
      (.ok (answer s.world).1,
        { s with world := (answer s.world).2, asked := s.asked ++ [question] }) := rfl

theorem answers_callWeb (hm : Mirrors host c.host Sees) (name : String) (signature : WebSignature)
    (args : List Value) :
    Answers Sees (Eval.callWeb (c.withHost host) name signature args)
      (Direct.callWeb c name signature args) := by
  intro replay cursor t s hs
  unfold Eval.callWeb Direct.callWeb Web.invoke
  rw [run_get_bind]
  -- the number of arguments is tested before anything is asked
  cases !signature.params.isEmpty && decide (signature.params.length ≠ args.length) with
  | true => exact ⟨.error _, t, s, rfl, rfl, hs, rfl⟩
  | false =>
    let request := Web.request name signature args
    obtain ⟨hanswer, hs'⟩ := hm.service request hs
    simp only [Bool.false_eq_true, if_false]
    rw [run_bind_ok (run_ask (.service request) (c.host.invoke request) s)]
    cases hhost : host.invoke request t with
    | mk answer t' =>
      have hweb : (c.withHost host).host.invoke (Web.request name signature args) t =
        (answer, t') := hhost
      rw [hhost] at hanswer hs'
      rw [← hanswer, hweb]
      cases answer with
      | ok v => exact ⟨.ok v, t', _, rfl, rfl, hs', rfl⟩
      | error e => exact ⟨.error _, t', _, rfl, rfl, hs', rfl⟩

theorem answers_callBuiltin (hm : Mirrors host c.host Sees) (b : Builtin) (args : List Value) :
    Answers Sees (Eval.callBuiltin (c.withHost host) b args) (Direct.callBuiltin c b args) := by
  intro replay cursor t s hs
  unfold Eval.callBuiltin Direct.callBuiltin
  by_cases hnow : b = .now ∧ args.isEmpty = true
  · obtain ⟨hclock, hs'⟩ := hm.clock hs
    simp only [if_pos hnow]
    rw [run_get_bind, run_bind_ok (run_ask .clock c.host.now s), ← hclock]
    exact answers_ofExcept _ replay cursor _ _ hs'
  · simp only [if_neg hnow]
    exact answers_ofExcept _ replay cursor t s hs

theorem invoke_listed (c : EvalContext τ) (name : String) (args before : List Value) (v : Value)
    (after : List Value) (t : τ) :
    (Eval.invoke c name args).run.run ⟨before ++ v :: after, before.length, t⟩ =
      (.ok v, ⟨before ++ v :: after, before.length + 1, t⟩) := by
  have hv : (before ++ v :: after)[before.length]? = some v := by
    rw [List.getElem?_append_right (Nat.le_refl _), Nat.sub_self, List.getElem?_cons_zero]
  unfold Eval.invoke
  rw [run_get_bind]
  dsimp only
  rw [hv]
  rfl

/-- What a call that is not on the list comes to, in both ways: a result, a fault, or a stop for a
function. Only the last makes a difference between the two: one goes on with the value, and the
other starts again. -/
inductive Ends (Sees : τ → σ → List Asked → Prop) (f : Functions) (name : String)
    (args replay : List Value) (t : τ) (s : DirectState σ) :
    Except Interrupt Value × EvalState τ → Except Fault Value × DirectState σ → Prop where
  | value (v : Value) {t' : τ} {s' : DirectState σ} (sees : Sees t' s'.world s'.asked)
      (calls : s'.calls = s.calls) :
      Ends Sees f name args replay t s (.ok v, ⟨replay ++ [v], replay.length + 1, t'⟩)
        (.ok v, s')
  | fault (x : Fault) {t' : τ} {s' : DirectState σ} (sees : Sees t' s'.world s'.asked)
      (calls : s'.calls = s.calls) :
      Ends Sees f name args replay t s (.error (.fault x), ⟨replay, replay.length, t'⟩)
        (.error x, s')
  | function :
      Ends Sees f name args replay t s (.error (.call name args), ⟨replay, replay.length, t⟩)
        (.ok (f name args), { s with calls := s.calls ++ [(name, args)] })

theorem Answers.record {e : Eval τ Value} {d : Direct σ Value} (h : Answers Sees e d)
    (f : Functions) (name : String) (args replay : List Value) {t : τ} {s : DirectState σ}
    (hs : Sees t s.world s.asked) :
    Ends Sees f name args replay t s ((e >>= Eval.record).run.run ⟨replay, replay.length, t⟩)
      (d.run.run s) := by
  obtain ⟨r, t', s', he, hd, hs', hcalls⟩ := h replay replay.length t s hs
  rw [hd]
  cases r with
  | ok v =>
    rw [run_bind_ok he]
    exact .value v hs' hcalls
  | error x =>
    rw [run_bind_error he]
    exact .fault x hs' hcalls

/-- Every call that is not on the list ends in one of these ways. Names are looked up in the same
order on both sides: services, functions, builtins. -/
theorem invoke_ends (hm : Mirrors host c.host Sees) (f : Functions) (name : String)
    (args replay : List Value) {t : τ} {s : DirectState σ} (hs : Sees t s.world s.asked) :
    Ends Sees f name args replay t s
      ((Eval.invoke (c.withHost host) name args).run.run ⟨replay, replay.length, t⟩)
      ((Direct.invoke c f name args).run.run s) := by
  have hnone : replay[replay.length]? = none := List.getElem?_eq_none (Nat.le_refl _)
  unfold Eval.invoke Direct.invoke
  rw [run_get_bind]
  dsimp only
  rw [hnone, EvalContext.withHost_scope]
  cases c.scope.web? name with
  | some signature => exact (answers_callWeb hm name signature args).record f name args replay hs
  | none =>
    dsimp only
    by_cases hfunction : c.isFunction name = true
    · have hfunction' : (c.withHost host).isFunction name = true := hfunction
      rw [if_pos hfunction, if_pos hfunction']
      exact .function
    · have hfunction' : ¬ (c.withHost host).isFunction name = true := hfunction
      rw [if_neg hfunction, if_neg hfunction']
      cases Builtin.ofName? name with
      | none => exact .fault _ hs rfl
      | some b => exact (answers_callBuiltin hm b args).record f name args replay hs

/-! ## Rounds -/

namespace Eval

variable {α : Type}

theorem rounds_ok {e : Eval τ α} {replay : List Value} {t : τ} {a : α} {st : EvalState τ}
    (h : e.run.run ⟨replay, 0, t⟩ = (.ok a, st)) (f : Functions) (n : Nat) :
    rounds e f (n + 1) replay t = some (.ok a, st.world) := by
  rw [rounds, h]

theorem rounds_fault {e : Eval τ α} {replay : List Value} {t : τ} {x : Fault} {st : EvalState τ}
    (h : e.run.run ⟨replay, 0, t⟩ = (.error (.fault x), st)) (f : Functions) (n : Nat) :
    rounds e f (n + 1) replay t = some (.error x, st.world) := by
  rw [rounds, h]

theorem rounds_call {e : Eval τ α} {replay args : List Value} {t : τ} {name : String}
    {st : EvalState τ} (h : e.run.run ⟨replay, 0, t⟩ = (.error (.call name args), st))
    (f : Functions) (n : Nat) :
    rounds e f (n + 1) replay t = rounds e f n (st.replay ++ [f name args]) st.world := by
  rw [rounds, h]

theorem rounds_congr {e : Eval τ α} {replay replay' : List Value} {t t' : τ}
    (h : e.run.run ⟨replay, 0, t⟩ = e.run.run ⟨replay', 0, t'⟩) (f : Functions) (n : Nat) :
    rounds e f n replay t = rounds e f n replay' t' := by
  cases n with
  | zero => rfl
  | succ n => rw [rounds, rounds, h]

/-- With the results of all earlier calls on the list, the evaluation `whole` comes to `e` from the
left, and has not asked the host anything. It is for any list that starts with these results, so
that it survives what later rounds append. -/
def Reaches (whole e : Eval τ α) (replay : List Value) : Prop :=
  ∀ (more : List Value) (t : τ),
    whole.run.run ⟨replay ++ more, 0, t⟩ = e.run.run ⟨replay ++ more, replay.length, t⟩

theorem Reaches.next {whole : Eval τ α} {c : EvalContext τ} {name : String}
    {args replay : List Value} {k : Value → Eval τ α}
    (h : Reaches whole (invoke c name args >>= k) replay) (v : Value) :
    Reaches whole (k v) (replay ++ [v]) := by
  intro more t
  have hlisted := invoke_listed c name args replay v more t
  rw [List.append_assoc, List.singleton_append, h, run_bind_ok hlisted, List.length_append,
    List.length_singleton]

/-- The rounds from where they are on come to what is left of direct evaluation, with one round for
each function that is left and one more. The induction is on `Matches`; the round that is going on
has reached `e`, with the results so far on its list. -/
theorem rounds_eq (hm : Mirrors host c.host Sees) {e : Eval τ α} {d : Direct σ α}
    (h : Matches c host f e d) {whole : Eval τ α} {replay : List Value}
    (hreaches : Reaches whole e replay) {t : τ} {s : DirectState σ}
    (hs : Sees t s.world s.asked) :
    ∃ calls t', (d.run.run s).2.calls = s.calls ++ calls ∧
      Sees t' (d.run.run s).2.world (d.run.run s).2.asked ∧
      rounds whole f (calls.length + 1) replay t = some ((d.run.run s).1, t') ∧
      ∀ n ≤ calls.length, rounds whole f n replay t = none := by
  induction h generalizing replay t s with
  | done r =>
    have hrun := hreaches [] t
    rw [List.append_nil] at hrun
    refine ⟨[], t, ?_, ?_, ?_, ?_⟩
    · cases r <;> exact (List.append_nil _).symm
    · cases r <;> exact hs
    · cases r with
      | ok a => exact rounds_ok hrun f 0
      | error x => exact rounds_fault hrun f 0
    · intro n hn
      obtain rfl := Nat.le_zero.mp hn
      rfl
  | @call name args k k' rest ih =>
    have hrun := hreaches [] t
    rw [List.append_nil] at hrun
    have hends := invoke_ends hm f name args replay hs
    generalize he : (invoke (c.withHost host) name args).run.run ⟨replay, replay.length, t⟩ = r
      at hends
    generalize hd : (Direct.invoke c f name args).run.run s = r' at hends
    cases hends with
    | @value v t₁ s₁ sees hcalls =>
      rw [run_bind_ok he] at hrun
      rw [run_bind_ok hd, ← hcalls]
      -- the same round is one of a list that has the result already
      have hnext := hreaches.next v
      have hsame : whole.run.run ⟨replay, 0, t⟩ =
          whole.run.run ⟨replay ++ [v], 0, t₁⟩ := by
        have hlisted := hnext [] t₁
        rw [List.append_nil, List.length_append, List.length_singleton] at hlisted
        rw [hrun, hlisted]
      simp only [rounds_congr hsame]
      exact ih v hnext sees
    | @fault x t₁ s₁ sees hcalls =>
      rw [run_bind_error he] at hrun
      rw [run_bind_error hd]
      refine ⟨[], t₁, ?_, sees, rounds_fault hrun f 0, ?_⟩
      · rw [List.append_nil, hcalls]
      · intro n hn
        obtain rfl := Nat.le_zero.mp hn
        rfl
    | function =>
      -- this round ends here, and the next one has the result of the function
      rw [run_bind_error he] at hrun
      rw [run_bind_ok hd]
      obtain ⟨calls, t', hcalls, hsees, hrounds, hfewer⟩ :=
        ih (f name args) (hreaches.next _) (s := { s with calls := s.calls ++ [(name, args)] }) hs
      refine ⟨(name, args) :: calls, t', ?_, hsees, ?_, ?_⟩
      · rw [hcalls, List.append_assoc, List.singleton_append]
      · rw [rounds_call hrun]
        exact hrounds
      · intro n hn
        cases n with
        | zero => rfl
        | succ n =>
          rw [rounds_call hrun]
          exact hfewer n (Nat.le_of_succ_le_succ hn)

end Eval

/-! ## Hosts -/

theorem mirrors_self (host : Host σ) : Mirrors host host fun t w _ => t = w where
  service := by
    rintro request t w asked rfl
    exact ⟨rfl, rfl⟩
  clock := by
    rintro t w asked rfl
    exact ⟨rfl, rfl⟩

/-- The log of a host is what it was asked. -/
theorem mirrors_logged (host : Host σ) (log : List Asked) :
    Mirrors host.logged host fun t w asked => t = (w, log ++ asked) where
  service := by
    rintro request t w asked rfl
    refine ⟨rfl, ?_⟩
    rw [← List.append_assoc]
    rfl
  clock := by
    rintro t w asked rfl
    refine ⟨rfl, ?_⟩
    rw [← List.append_assoc]
    rfl

/-- An evaluation agrees with a direct one. It takes one round more than there are calls of
functions, comes to the same value or fault, and leaves the host in the same state. On a host with a
log, all that was asked in all rounds together is what the direct evaluation asked. -/
def Agrees (c : EvalContext σ) (f : Functions) {α : Type}
    (e : (τ : Type) → EvalContext τ → Eval τ α) (d : Direct σ α) : Prop :=
  ∀ (world : σ) (log : List Asked),
    let direct := d.run.run ⟨world, [], []⟩
    let calls := direct.2.calls.length
    (e σ c).rounds f (calls + 1) [] world = some (direct.1, direct.2.world) ∧
    (∀ n ≤ calls, (e σ c).rounds f n [] world = none) ∧
    (e (σ × List Asked) (c.withHost c.host.logged)).rounds f (calls + 1) [] (world, log) =
      some (direct.1, direct.2.world, log ++ direct.2.asked)

/-- Two evaluations that match agree. The invariant is used twice, for the host and for the host
with a log, and the two uses have one number of calls. -/
theorem Matches.agrees {α : Type} {e : (τ : Type) → EvalContext τ → Eval τ α}
    {d : Direct σ α}
    (h : ∀ (τ : Type) (host : Host τ), Matches c host f (e τ (c.withHost host)) d) :
    Agrees c f e d := by
  intro world log
  have hfrom : ∀ (τ : Type) (e : Eval τ α), Eval.Reaches e e [] := fun _ _ _ _ => rfl
  obtain ⟨calls, t, hcalls, hworld, hrounds, hfewer⟩ :=
    Eval.rounds_eq (mirrors_self c.host) (h σ c.host) (hfrom _ _) (s := ⟨world, [], []⟩) rfl
  obtain ⟨calls', t', hcalls', hlogged, hrounds', -⟩ :=
    Eval.rounds_eq (mirrors_logged c.host log) (h _ c.host.logged) (hfrom _ _)
      (t := (world, log)) (s := ⟨world, [], []⟩) (by rw [List.append_nil])
  rw [List.nil_append] at hcalls hcalls'
  rw [← hcalls] at hrounds hfewer
  rw [← hcalls', hlogged] at hrounds'
  rw [hworld] at hrounds
  exact ⟨hrounds, hfewer, hrounds'⟩

/-- **Evaluation with a replay list is direct evaluation**: of an expression, of several under one
list, and of an assignment. -/
theorem rounds_agree_direct (c : EvalContext σ) (f : Functions) :
    (∀ e, Agrees c f (fun _ c => Eval.expr c e) (Direct.expr c f e)) ∧
    (∀ es, Agrees c f (fun _ c => Eval.exprs c es) (Direct.exprs c f es)) ∧
    ∀ targets op values strict,
      Agrees c f (fun _ c => Assign.plan c targets op values strict)
        (Direct.plan c f targets op values strict) := by
  refine ⟨fun e => ?_, fun es => ?_, fun targets op values strict => ?_⟩
  · exact Matches.agrees fun _ _ => .expr e
  · exact Matches.agrees fun _ _ => .exprs es
  · exact Matches.agrees fun _ _ => .plan targets op values strict

end Stepwise
