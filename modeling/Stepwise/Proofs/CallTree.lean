import Stepwise.Proofs.Replay

/-!
# Evaluations as trees of calls

Evaluation reads a scope and makes calls. What it does in a fixed scope is a tree: at each node a
call, and for each result that the call may have the rest of the evaluation. **Playing a tree is
evaluation** (`play_expr` and the lemmas behind it), with results taken from the replay list as long
as there are any.

The tree says which calls an evaluation reaches if the earlier ones have these results (`asks`), and
so which call takes which entry of the list. `Eval` does not show this: it threads the list and a
cursor through all parts of an expression, so where a call finds its result depends on all calls
before it. In the tree the same question is answered by going down.

`Proofs/Deciders` compares the trees of one statement in two scopes, which is where they are needed:
a function that runs in the middle of an evaluation may change variables, and the second pass then
plays another tree over the same list.

The definitions below repeat those of `Eval` and `Assign` arm by arm, with the host, the functions
of the script and the replay list taken out. They are kept in step by the lemmas on playing, each of
which unfolds both sides once.
-/

namespace Stepwise

/-- What an evaluation in a fixed scope does: it is over, with a value or a fault, or it makes a
call and goes on with the result. Which of the calls are functions of the script, services or
built-ins is left open, since all of them take their results from the same list. -/
inductive CallTree (α : Type) where
  | done (r : Except Fault α)
  | call (name : String) (args : List Value) (k : Value → CallTree α)

namespace CallTree

variable {α β σ : Type}

/-- Go on at the leaves. A fault is a leaf that nothing follows, so an evaluation that fails makes
no more calls. -/
def bind (t : CallTree α) (f : α → CallTree β) : CallTree β :=
  match t with
  | done (.ok a) => f a
  | done (.error x) => done (.error x)
  | call name args k => call name args fun v => (k v).bind f

instance : Monad CallTree where
  pure a := done (.ok a)
  bind := bind

def invoke (name : String) (args : List Value) : CallTree Value :=
  call name args fun v => done (.ok v)

/-- The names of the calls that are reached, with these results: one for each result, and the one
behind them that has none. Fewer if the evaluation ends before. -/
def asks : CallTree α → List Value → List String
  | done _, _ => []
  | call name _ _, [] => [name]
  | call name _ k, v :: vs => name :: (k v).asks vs

/-! ## Evaluation in a scope

One definition for each part of an evaluation, under the name it has there. Variables are read from
the scope here and now, so the tree of an expression depends on the scope, and only on it. -/

mutual

def expr (s : Scope) : Expr → CallTree Value
  | .num x _ => pure (.num x)
  | .bool b _ => pure (.bool b)
  | .null _ => pure .null
  | .noop _ => pure .null
  | .string text _ => pure (.str text)
  | .var name _ => done (s.get name)
  | .binary left op right _ => do
    let l ← expr s left
    match op with
    -- The second operand is evaluated only if the first does not decide, so its calls are not in
    -- the tree of the other case.
    | .and => if l.isTruthy then return .bool (← expr s right).isTruthy else return .bool false
    | .or => if l.isTruthy then return .bool true else return .bool (← expr s right).isTruthy
    | _ => do
      let r ← expr s right
      done (Value.binary op l r)
  | .unary op operand _ => do
    let v ← expr s operand
    done (Value.unary op v)
  | .field object attr _ _ => do
    let v ← expr s object
    done (v.field attr)
  | .index object index _ => do
    let v ← expr s object
    let i ← expr s index
    done (v.element i)
  | .list items _ => do
    let vs ← exprs s items
    return .array vs
  | .call name args _ => do
    let vs ← exprs s args
    invoke name vs

def exprs (s : Scope) : List Expr → CallTree (List Value)
  | [] => pure []
  | e :: rest => do
    let v ← expr s e
    let vs ← exprs s rest
    return v :: vs

end

def callOf (s : Scope) (name : String) (args : List Expr) : CallTree Value := do
  let vs ← exprs s args
  invoke name vs

def option (s : Scope) : Option Expr → CallTree (Option Value)
  | some e => do return some (← expr s e)
  | none => pure none

def target (s : Scope) : Expr → CallTree Target
  | .var name _ => pure (.var name)
  | .field object attr _ _ => do
    let t ← target s object
    return t.child (.field attr)
  | .index object index _ => do
    let t ← target s object
    let i ← expr s index
    return t.child (← done (Assign.keyOf i))
  | e => done (.error (.typeError (.notTarget e.line)))

/-- Which service an assignment takes apart does not depend on the host: it is declared in the
scope. -/
def decomposition? (s : Scope) (targets values : List Expr) :
    Option (String × List Expr × WebSignature) :=
  match values with
  | [.call name args _] =>
    if targets.length < 2 then none
    else (s.web? name).map fun signature => (name, args, signature)
  | _ => none

def sources (s : Scope) (targets values : List Expr) (strict : Bool) :
    CallTree (List Value × List MissingOutput) := do
  if targets.length = values.length then
    return (← exprs s values, [])
  else
    match decomposition? s targets values with
    | none => done (.error (.assignmentMismatch targets.length values.length))
    | some (name, args, signature) => do
      let response ← callOf s name args
      let outs := Assign.outputsFor signature response targets.length
      let missing := Assign.missingOutputs name outs
      match strict, missing with
      | true, m :: _ => done (.error (.missingOutputParameter m.service m.param))
      | _, _ => return (Assign.outputValues outs, missing)

def bindings (s : Scope) (op : AssignOp) :
    List (Expr × Value) → CallTree (List (Target × Value))
  | [] => pure []
  | (e, v) :: rest => do
    let t ← target s e
    let v ← match op.binary? with
      | none => pure v
      | some bin => done do Value.binary bin (← t.read s) v
    let more ← bindings s op rest
    return (t, v) :: more

def plan (s : Scope) (targets : List Expr) (op : AssignOp) (values : List Expr) (strict : Bool) :
    CallTree AssignPlan := do
  let (vs, missing) ← sources s targets values strict
  let bound ← bindings s op (targets.zip vs)
  return ⟨bound, missing⟩

/-- The tests of a condition, up to the first that holds. Tests behind it make no calls, and the
tests in front share one list of results. -/
def chooseBranch (s : Scope) (index : Nat) : List Branch → CallTree (Option Nat)
  | [] => pure none
  | branch :: rest => do
    let v ← expr s branch.test
    if v.isTruthy then return some index else chooseBranch s (index + 1) rest

/-! ## Playing a tree -/

/-- Make the calls of a tree, or take their results from the replay list. What a call does is left
to `Eval.invoke`, the one place where host, built-ins and functions of the script are told apart. -/
def play (c : EvalContext σ) : CallTree α → Eval σ α
  | done r => Eval.ofExcept r
  | call name args k => do
    let v ← Eval.invoke c name args
    play c (k v)

variable (c : EvalContext σ)

theorem play_pure (a : α) : play c (pure a) = pure a := rfl

/-- Playing goes through a bind, so the tree of a whole statement is played part by part. The
induction is on the first tree, and a fault in it cuts off the second on both sides. -/
theorem play_bind (t : CallTree α) (f : α → CallTree β) :
    play c (t >>= f) = play c t >>= fun a => play c (f a) := by
  induction t with
  | done r => cases r <;> rfl
  | call name args k ih =>
    simp only [play, bind_assoc]
    -- both sides make the same call, and agree on what follows it for every result
    exact congrArg _ (funext ih)

theorem play_invoke (name : String) (args : List Value) :
    play c (invoke name args) = Eval.invoke c name args :=
  bind_pure _

mutual

theorem play_expr : ∀ e : Expr, play c (expr c.scope e) = Eval.expr c e
  | .num _ _ => by rw [expr, Eval.expr, play_pure]
  | .bool _ _ => by rw [expr, Eval.expr, play_pure]
  | .null _ => by rw [expr, Eval.expr, play_pure]
  | .noop _ => by rw [expr, Eval.expr, play_pure]
  | .string _ _ => by rw [expr, Eval.expr, play_pure]
  | .var _ _ => by rw [expr, Eval.expr, play]
  | .binary left op right line => by
    have hleft := play_expr left
    have hright := play_expr right
    cases op with
    -- the right side is evaluated only behind the `split`, so the two branches are compared apart
    | and =>
      simp only [expr, Eval.expr, play_bind, hleft]
      congr 1
      funext l
      split
      · simp only [play_bind, hright, play_pure]
      · rfl
    | or =>
      simp only [expr, Eval.expr, play_bind, hleft]
      congr 1
      funext l
      split
      · rfl
      · simp only [play_bind, hright, play_pure]
    | _ => simp only [expr, Eval.expr, play_bind, hleft, hright, play]
  | .unary op operand line => by
    simp only [expr, Eval.expr, play_bind, play_expr operand, play]
  | .field object attr attrLine line => by
    simp only [expr, Eval.expr, play_bind, play_expr object, play]
  | .index object index line => by
    simp only [expr, Eval.expr, play_bind, play_expr object, play_expr index, play]
  | .list items line => by
    simp only [expr, Eval.expr, play_bind, play_exprs items, play_pure]
  | .call name args line => by
    simp only [expr, Eval.expr, play_bind, play_exprs args, play_invoke]

theorem play_exprs : ∀ es : List Expr, play c (exprs c.scope es) = Eval.exprs c es
  | [] => by rw [exprs, Eval.exprs, play_pure]
  | e :: rest => by
    simp only [exprs, Eval.exprs, play_bind, play_expr e, play_exprs rest, play_pure]

end

theorem play_callOf (name : String) (args : List Expr) :
    play c (callOf c.scope name args) = Eval.call c name args := by
  simp only [callOf, Eval.call, play_bind, play_exprs, play_invoke]

theorem play_option (e : Option Expr) : play c (option c.scope e) = Eval.option c e := by
  cases e with
  | none => rfl
  | some e => simp only [option, Eval.option, play_bind, play_expr, play_pure]

theorem play_target (e : Expr) : play c (target c.scope e) = Assign.target c e := by
  induction e using Assign.target.induct with
  | case1 name line => simp only [target, Assign.target, play_pure]
  | case2 object attr attrLine line ih =>
    simp only [target, Assign.target, play_bind, ih, play_pure]
  | case3 object index line ih =>
    simp only [target, Assign.target, play_bind, ih, play_expr, play_pure, play]
  -- What is no target fails in both, but the equations of the definitions apply only once the three
  -- other forms are excluded.
  | case4 e hvar hfield hindex =>
    rw [target, Assign.target]
    · rfl
    all_goals assumption

theorem play_sources (targets values : List Expr) (strict : Bool) :
    play c (sources c.scope targets values strict) = Assign.sources c targets values strict := by
  unfold sources Assign.sources
  split
  · simp only [play_bind, play_exprs, play_pure]
  have hsame : Assign.decomposition? c targets values = decomposition? c.scope targets values := rfl
  rw [hsame]
  rcases decomposition? c.scope targets values with _ | ⟨name, args, signature⟩
  · rfl
  simp only [play_bind, play_callOf]
  congr 1
  funext response
  generalize Assign.missingOutputs name _ = missing
  cases strict <;> cases missing <;> rfl

theorem play_bindings (op : AssignOp) (pairs : List (Expr × Value)) :
    play c (bindings c.scope op pairs) = Assign.bindings c op pairs := by
  induction pairs with
  | nil => rfl
  | cons pair rest ih =>
    obtain ⟨e, v⟩ := pair
    simp only [bindings, Assign.bindings, play_bind, play_target]
    congr 1
    funext t
    cases op.binary? <;> simp only [play_bind, ih, play_pure, play]

theorem play_plan (targets : List Expr) (op : AssignOp) (values : List Expr) (strict : Bool) :
    play c (plan c.scope targets op values strict) = Assign.plan c targets op values strict := by
  simp only [plan, Assign.plan, play_bind, play_sources, play_bindings, play_pure]

/-! ## What a stop says about a tree -/

variable {c : EvalContext σ}

/-- More results reach more calls, and change nothing about the earlier ones. So the entries that
are on the list keep their calls when the list grows. -/
theorem asks_prefix (t : CallTree α) (vs more : List Value) :
    t.asks vs <+: t.asks (vs ++ more) := by
  induction t generalizing vs with
  | done r => exact List.nil_prefix
  | call name args k ih =>
    cases vs with
    | nil =>
      cases more with
      | nil => exact List.prefix_rfl
      | cons v more => exact List.prefix_append [name] _
    | cons v vs => exact List.prefix_cons_inj name |>.mpr (ih v vs)

/-- A call takes the next result of the list, or adds one to it, or stops for a function, or fails.
The cursor moves on by one exactly if the call has a result, and only at the end of the list is
anything added. -/
inductive Invoked (name : String) (args replay : List Value) (cursor : Nat) :
    Except Interrupt Value × EvalState σ → Prop where
  | listed {v : Value} (h : replay[cursor]? = some v) (w : σ) :
      Invoked name args replay cursor (.ok v, ⟨replay, cursor + 1, w⟩)
  | made (h : cursor = replay.length) (v : Value) (w : σ) :
      Invoked name args replay cursor (.ok v, ⟨replay ++ [v], cursor + 1, w⟩)
  | stopped (h : cursor = replay.length) (w : σ) :
      Invoked name args replay cursor (.error (.call name args), ⟨replay, cursor, w⟩)
  | failed (x : Fault) (w : σ) :
      Invoked name args replay cursor (.error (.fault x), ⟨replay, cursor, w⟩)

/-- What a call does is found out in two ways: if there is a result for it on the list, by looking
at the definition, and at the end of the list from what direct evaluation does. -/
theorem invoke_invoked (c : EvalContext σ) (name : String) (args : List Value)
    {replay : List Value} {cursor : Nat} (hcursor : cursor ≤ replay.length) (w : σ) :
    Invoked name args replay cursor
      ((Eval.invoke c name args).run.run ⟨replay, cursor, w⟩) := by
  rcases hv : replay[cursor]? with _ | v
  · have hend : cursor = replay.length :=
      Nat.le_antisymm hcursor (List.getElem?_eq_none_iff.mp hv)
    subst hend
    have hends := invoke_ends (mirrors_self c.host) (fun _ _ => .null) name args replay
      (s := ⟨w, [], []⟩) rfl
    have hcontext : c.withHost c.host = c := rfl
    rw [hcontext] at hends
    generalize (Eval.invoke c name args).run.run ⟨replay, replay.length, w⟩ = r at hends ⊢
    generalize (Direct.invoke c _ name args).run.run _ = r' at hends
    cases hends with
    | value v => exact .made rfl v _
    | fault x => exact .failed x _
    | function => exact .stopped rfl w
  · have hrun : (Eval.invoke c name args).run.run ⟨replay, cursor, w⟩ =
        (.ok v, ⟨replay, cursor + 1, w⟩) := by
      unfold Eval.invoke
      rw [run_get_bind]
      dsimp only
      rw [hv]
      rfl
    rw [hrun]
    exact .listed hv w

/-- **An evaluation stops at the first call that has no result**, with a result for each call before
it on the list. The calls that take the entries from the cursor on are those that the tree asks for,
in this order. -/
theorem play_stops {t : CallTree α} {replay args : List Value} {cursor : Nat} {w : σ}
    {name : String} {st : EvalState σ} (hcursor : cursor ≤ replay.length)
    (h : (play c t).run.run ⟨replay, cursor, w⟩ = (.error (.call name args), st)) :
    replay <+: st.replay ∧
      ∃ before, t.asks (st.replay.drop cursor) = before ++ [name] ∧
        before.length + cursor = st.replay.length := by
  induction t generalizing replay cursor w with
  | done r => cases r <;> cases h
  | call first args' k ih =>
    have hinvoked := invoke_invoked c first args' hcursor w
    rw [play] at h
    generalize hrun : (Eval.invoke c first args').run.run ⟨replay, cursor, w⟩ = r at hinvoked
    -- a call that has its result goes on in the tree, one place further on the list
    have goes : ∀ (v : Value) (replay' : List Value) (w' : σ), replay <+: replay' →
        r = (.ok v, ⟨replay', cursor + 1, w'⟩) → replay'[cursor]? = some v →
        replay <+: st.replay ∧ ∃ before, (call first args' k).asks (st.replay.drop cursor) =
          before ++ [name] ∧ before.length + cursor = st.replay.length := by
      rintro v replay' w' hkept rfl hv
      rw [run_bind_ok hrun] at h
      have hlt : cursor < replay'.length := (List.getElem?_eq_some_iff.mp hv).1
      obtain ⟨hgrown, before, hasks, hlength⟩ := ih v hlt h
      obtain ⟨more, hmore⟩ := hgrown
      have hdrop : st.replay.drop cursor = v :: st.replay.drop (cursor + 1) := by
        have hget : st.replay[cursor]? = some v := by
          rw [← hmore, List.getElem?_append_left hlt, hv]
        obtain ⟨hlt', rfl⟩ := List.getElem?_eq_some_iff.mp hget
        exact List.drop_eq_getElem_cons hlt'
      refine ⟨hkept.trans ⟨more, hmore⟩, first :: before, ?_, ?_⟩
      · rw [hdrop, asks, hasks, List.cons_append]
      · rw [List.length_cons, ← hlength]
        omega
    cases hinvoked with
    | @listed v hv w' => exact goes v replay w' List.prefix_rfl rfl hv
    | made hend v w' =>
      refine goes v (replay ++ [v]) w' (List.prefix_append _ _) rfl ?_
      rw [hend, List.getElem?_concat_length]
    | stopped hend w' =>
      rw [run_bind_error hrun] at h
      cases h
      refine ⟨List.prefix_rfl, [], ?_, ?_⟩
      · rw [hend, List.drop_length]
        rfl
      · rw [List.length_nil, Nat.zero_add, hend]
    | failed x w' =>
      rw [run_bind_error hrun] at h
      cases h

end CallTree

end Stepwise
