import Stepwise.Proofs.Closed
import Stepwise.Proofs.Decomposition
import Stepwise.Proofs.Execute

/-!
# Statements keep closed properties

What a statement reads and writes is followed here from the scope and back into it: through the
value of a variable, the evaluation of an expression, the targets of an assignment and the values
that it hands out, up to what a simple statement leaves behind. **A property that operations keep
is one that statements keep**, and the faults of a statement are about values
(`Stmt.execute_all`).

An evaluation can end in three ways, and each carries values: the value itself, a fault with what
was thrown, and a call with its arguments. It also leaves the list of results that it was given and
has made longer. `Eval.Keeps` speaks of all four at once, which is why its rules follow those of the
evaluator one by one. Two things are asked of the surroundings: that the variables have the
property, and that the answers of the host have it (`Host.Answers`).

## Layout

`Proofs/Closed` has the operations on values. This module goes up from there: scopes, then targets,
then evaluations by a mutual induction over expressions, then the pairs of an evaluation and a part
that writes, which is what a simple statement is. Every lemma has the same form: values with the
property go in, and values with the property come out, in each way the operation may end. `Gives`
and `Fares` say that of an operation that may fail.

`Proofs/OrderedRuns` uses `Stmt.execute_all` for the one case of a micro-step that runs a statement,
and `Proofs/JumpCheck` for the faults in it.
-/

namespace Stepwise

/-! ## Scopes

Of a scope the values of its variables are asked. Constants are variables too, and the signatures
of services hold no values. -/

/-- The values of all variables have a property. -/
def Scope.All (P : Value → Prop) (s : Scope) : Prop := ∀ entry ∈ s.vars, P entry.2

namespace Scope.All

variable {P : Value → Prop} {s : Scope} {name : String} {v : Value}

theorem empty : Scope.empty.All P := List.forall_mem_nil _

theorem get? (h : s.All P) : ∀ v ∈ s.get? name, P v :=
  fun _ hv => Assoc.of_get? h hv

theorem get (h : s.All P) (name : String) : Gives P P (s.get name) := by
  unfold Scope.get
  split
  · rename_i v hv
    show P v
    exact h.get? v hv
  · trivial

theorem force (h : s.All P) (name : String) (hv : P v) : (s.force name v).All P :=
  Assoc.forall_put h hv

theorem set (h : s.All P) (name : String) (hv : P v) :
    Gives P (Scope.All P) (s.set name v) := by
  unfold Scope.set
  split
  · trivial
  · exact h.force name hv

theorem declareConst (h : s.All P) (name : String) :
    Gives P (Scope.All P) (s.declareConst name) := by
  unfold Scope.declareConst
  split
  · show Scope.All P _
    split <;> exact h
  · trivial

theorem updatable (h : s.All P) (name : String) : Gives P P (s.updatable name) := by
  unfold Scope.updatable
  split
  · trivial
  · exact h.get name

theorem restore (h : s.All P) (name : String) {previous : Option Value}
    (hprevious : ∀ v ∈ previous, P v) : (s.restore name previous).All P := by
  cases previous with
  | some v => exact h.force name (hprevious v rfl)
  | none => exact Assoc.forall_erase name h

/-- Bindings that are given back are values that the scope had before, or none. -/
theorem restoreAll (h : s.All P) {saved : List (String × Option Value)}
    (hsaved : ∀ entry ∈ saved, ∀ v ∈ entry.2, P v) :
    (s.restoreAll saved).All P := by
  induction saved generalizing s with
  | nil => exact h
  | cons entry rest ih =>
    obtain ⟨hentry, hrest⟩ := List.forall_mem_cons.mp hsaved
    exact ih (h.restore entry.1 hentry) hrest

theorem noteFailure (h : s.All P) (closed : Value.Closed P) (f : Failure) :
    (s.noteFailure f).All P :=
  h.force _ (closed.str _)

end Scope.All

/-! ## Assignments -/

namespace Target

variable {P : Value → Prop} {s : Scope} {v : Value}

theorem read_all (closed : Value.Closed P) (h : s.All P) (t : Target) : Gives P P (t.read s) :=
  (h.get t.root).bind fun _ hroot => closed.atPath hroot t.keys

/-- Writing to a target keeps the property of a scope, also if it fails on the way: what was made up
to there stays. -/
theorem write_all (closed : Value.Closed P) (h : s.All P) (t : Target) (hv : P v) :
    Gives P Anything (t.write s v).1 ∧ (t.write s v).2.All P := by
  cases t with
  | var name =>
    have hset := h.set name hv
    unfold write
    dsimp only
    split
    · rename_i s' hs'
      rw [hs'] at hset
      exact ⟨trivial, hset⟩
    · rename_i f hf
      rw [hf] at hset
      exact ⟨hset, h⟩
  | path root keys =>
    -- a missing root is made first, and is an empty container then
    have hcreated : Gives P (Scope.All P)
        (if s.contains root then Except.ok s else s.set root (Value.emptyFor keys.head?)) := by
      split
      · exact h
      · exact h.set root (closed.emptyFor _)
    unfold write
    dsimp only
    split
    · rename_i f hf
      rw [hf] at hcreated
      exact ⟨hcreated, h⟩
    · rename_i s' hs'
      rw [hs'] at hcreated
      have hupdatable := Scope.All.updatable hcreated root
      split
      · rename_i f hf
        rw [hf] at hupdatable
        exact ⟨hupdatable, hcreated⟩
      · rename_i slot hslot
        rw [hslot] at hupdatable
        obtain ⟨hresult, hset⟩ := closed.setPath hupdatable hv keys
        exact ⟨hresult, Scope.All.force hcreated root hset⟩

/-- Several targets are written one after the other, and the first that fails ends it. What was
written before it stays, so the scope has the property in either case. -/
theorem bind_all (closed : Value.Closed P) (h : s.All P) {bindings : List (Target × Value)}
    (hbindings : ∀ binding ∈ bindings, P binding.2) :
    Gives P Anything (Target.bind s bindings).1 ∧ (Target.bind s bindings).2.All P := by
  induction bindings generalizing s with
  | nil => exact ⟨trivial, h⟩
  | cons binding rest ih =>
    obtain ⟨t, v⟩ := binding
    obtain ⟨hv, hrest⟩ := List.forall_mem_cons.mp hbindings
    obtain ⟨hresult, hwritten⟩ := write_all closed h t hv
    unfold Target.bind
    rcases hwrite : t.write s v with ⟨f | ⟨⟩, s'⟩
    · rw [hwrite] at hresult hwritten
      exact ⟨hresult, hwritten⟩
    · rw [hwrite] at hwritten
      exact ih hwritten hrest

end Target

/-- What a target gets from a response is a part of it, or a text. -/
theorem Assign.outputValues_all {P : Value → Prop} (closed : Value.Closed P)
    (signature : WebSignature) {response : Value} (h : P response) (count : Nat) :
    ∀ v ∈ outputValues (outputsFor signature response count), P v := by
  rw [outputValues_eq]
  intro v hv
  obtain ⟨i, -, rfl⟩ := List.mem_map.mp hv
  rw [rightHand, extracted]
  cases signature.outputs[i]? with
  | none => exact closed.str ""
  | some name =>
    -- fields are parts of the response, and the texts of XML elements are strings
    cases response with
    | struct fields =>
      cases hget : Assoc.get? name fields with
      | none => simpa [Web.output?, hget] using closed.str ""
      | some w => simpa [Web.output?, hget] using Assoc.of_get? (closed.fields h) hget
    | str xml =>
      cases hget : Assoc.get? name (Xml.elementTexts (Xml.events xml)) with
      | none => simpa [Web.output?, hget] using closed.str ""
      | some text => simpa [Web.output?, hget] using closed.str text
    | _ => exact closed.str ""

/-! ## Evaluations -/

/-- An interrupt about values, and what it takes along has a property. -/
def Interrupt.OfValues (P : Value → Prop) : Interrupt → Prop
  | .fault f => f.OfValues P
  | .call _ args => ∀ v ∈ args, P v

/-- The answers of a host have a property. It is the only thing that is asked of a host: what it
refuses is always the fault of a service. -/
def Host.Answers {σ : Type} (P : Value → Prop) (host : Host σ) : Prop :=
  ∀ request world v, (host.invoke request world).1 = .ok v → P v

/-- An evaluation cannot get out of a property: operations keep it, and all that an evaluation reads
has it. -/
structure EvalContext.Within {σ : Type} (P : Value → Prop) (c : EvalContext σ) : Prop where
  closed : Value.Closed P
  scope : c.scope.All P
  host : c.host.Answers P

/-- An evaluation that starts with results that have the property `P` ends with such results, and
with a value that has the property `Q`. A function that is called returns its value through that
list, so what is on it becomes a value of the next evaluation. -/
def Eval.Keeps {σ α : Type} (P : Value → Prop) (Q : α → Prop) (e : Eval σ α) : Prop :=
  ∀ st : EvalState σ, (∀ v ∈ st.replay, P v) →
    Fares (Interrupt.OfValues P) Q (e.run.run st).1 ∧ ∀ v ∈ (e.run.run st).2.replay, P v

namespace Eval.Keeps

variable {σ α β : Type} {c : EvalContext σ} {P : Value → Prop} {Q : α → Prop}
  {Q' : β → Prop}

theorem pure {a : α} (h : Q a) : Eval.Keeps P Q (Pure.pure a : Eval σ α) :=
  fun _ hst => ⟨h, hst⟩

theorem ofExcept {r : Except Fault α} (h : Gives P Q r) :
    Eval.Keeps P Q (Eval.ofExcept r : Eval σ α) := by
  intro st hst
  cases r with
  | ok a => exact ⟨h, hst⟩
  | error f => exact ⟨h, hst⟩

theorem fault {f : Fault} (h : f.OfValues P) : Eval.Keeps P Q (Eval.fault f : Eval σ α) :=
  fun _ hst => ⟨h, hst⟩

theorem bind {e : Eval σ α} {k : α → Eval σ β} (he : e.Keeps P Q)
    (hk : ∀ a, Q a → (k a).Keeps P Q') :
    (e >>= k).Keeps P Q' := by
  intro st hst
  obtain ⟨hresult, hreplay⟩ := he st hst
  rcases hrun : e.run.run st with ⟨i | a, st₁⟩
  · rw [hrun] at hresult hreplay
    rw [run_bind_error hrun]
    exact ⟨hresult, hreplay⟩
  · rw [hrun] at hresult hreplay
    rw [run_bind_ok hrun]
    exact hk a hresult st₁ hreplay

theorem record {e : Eval σ Value} (he : e.Keeps P P) :
    (e >>= fun v => Eval.record v).Keeps P P := by
  refine bind he fun v hv st hst => ⟨hv, ?_⟩
  show ∀ w ∈ st.replay ++ [v], P w
  intro w hw
  obtain hw | hw := List.mem_append.mp hw
  · exact hst w hw
  · exact List.mem_singleton.mp hw ▸ hv

theorem callWeb (hc : c.Within P) (name : String) (signature : WebSignature) (args : List Value) :
    (Eval.callWeb c name signature args).Keeps P P := by
  intro st hst
  have hanswer : Gives P P (Web.invoke c.host name signature args st.world).1 := by
    unfold Web.invoke
    split
    · trivial
    · split
      · rename_i v world hinvoke
        show P v
        exact hc.host _ _ v (congrArg Prod.fst hinvoke)
      · trivial
  exact ofExcept hanswer { st with world := _ } hst

theorem callBuiltin (hc : c.Within P) (b : Builtin) {args : List Value}
    (hargs : ∀ v ∈ args, P v) :
    (Eval.callBuiltin c b args).Keeps P P := by
  unfold Eval.callBuiltin
  split
  · intro st hst
    exact ofExcept (Builtin.apply_gives hc.closed (c.host.now st.world).1 b hargs)
      { st with world := _ } hst
  · exact ofExcept (Builtin.apply_gives hc.closed _ b hargs)

/-- A call takes its result from the list if it is there, and else asks a service, a function or a
builtin. A function is asked by stopping, with the arguments as what the interrupt takes along. -/
theorem invoke (hc : c.Within P) (name : String) {args : List Value}
    (hargs : ∀ v ∈ args, P v) :
    (Eval.invoke c name args).Keeps P P := by
  intro st hst
  rw [Eval.invoke, run_get_bind]
  split
  · rename_i v hv
    exact ⟨hst v (List.mem_of_getElem? hv), hst⟩
  · split
    · exact record (callWeb hc name _ args) st hst
    · split
      · exact ⟨hargs, hst⟩
      · split
        · exact record (callBuiltin hc _ hargs) st hst
        · exact fault (f := .undefinedFunction name) trivial st hst

mutual

/-- **An expression evaluates to a value with the property.** The induction is on the expression and
the lists of expressions in it; operators that decide early need their right side only in some
cases. -/
theorem expr (hc : c.Within P) : ∀ e : Expr, (Eval.expr c e).Keeps P P
  | .num x _ => by
    rw [Eval.expr]
    exact pure (hc.closed.num x)
  | .bool b _ => by
    rw [Eval.expr]
    exact pure (hc.closed.bool b)
  | .null _ | .noop _ => by
    rw [Eval.expr]
    exact pure hc.closed.null
  | .string s _ => by
    rw [Eval.expr]
    exact pure (hc.closed.str s)
  | .var name _ => by
    rw [Eval.expr]
    exact ofExcept (hc.scope.get name)
  | .binary left op right _ => by
    rw [Eval.expr]
    refine bind (expr hc left) fun l hl => ?_
    -- the two operators that may leave their right side out, and all others
    split
    · split
      · exact bind (expr hc right) fun _ _ => pure (hc.closed.bool _)
      · exact pure (hc.closed.bool _)
    · split
      · exact pure (hc.closed.bool _)
      · exact bind (expr hc right) fun _ _ => pure (hc.closed.bool _)
    · exact bind (expr hc right) fun r hr => ofExcept (hc.closed.binary _ hl hr)
  | .unary op operand _ => by
    rw [Eval.expr]
    exact bind (expr hc operand) fun v _ => ofExcept (hc.closed.unary op v)
  | .field object attr _ _ => by
    rw [Eval.expr]
    exact bind (expr hc object) fun v hv => ofExcept (hc.closed.field hv attr)
  | .index object index _ => by
    rw [Eval.expr]
    refine bind (expr hc object) fun v hv => ?_
    exact bind (expr hc index) fun i _ => ofExcept (hc.closed.element hv i)
  | .list items _ => by
    rw [Eval.expr]
    exact bind (exprs hc items) fun _ hvs => pure (hc.closed.array hvs)
  | .call name args _ => by
    rw [Eval.expr]
    exact bind (exprs hc args) fun vs hvs => invoke hc name hvs

theorem exprs (hc : c.Within P) :
    ∀ es : List Expr, (Eval.exprs c es).Keeps P fun vs => ∀ v ∈ vs, P v
  | [] => by
    rw [Eval.exprs]
    exact pure (List.forall_mem_nil _)
  | e :: rest => by
    rw [Eval.exprs]
    refine bind (expr hc e) fun v hv => ?_
    exact bind (exprs hc rest) fun vs hvs => pure (List.forall_mem_cons.mpr ⟨hv, hvs⟩)

end

theorem option (hc : c.Within P) : ∀ e : Option Expr, (Eval.option c e).Keeps P Anything
  | some e => bind (expr hc e) fun _ _ => pure trivial
  | none => pure trivial

theorem call (hc : c.Within P) (name : String) (args : List Expr) :
    (Eval.call c name args).Keeps P P :=
  bind (exprs hc args) fun _ hvs => invoke hc name hvs

theorem target (hc : c.Within P) : ∀ e : Expr, (Assign.target c e).Keeps P Anything
  | .var .. => pure trivial
  | .field object _ _ _ => by
    rw [Assign.target]
    exact bind (target hc object) fun _ _ => pure trivial
  | .index object index _ => by
    rw [Assign.target]
    refine bind (target hc object) fun _ _ => bind (expr hc index) fun i _ => ?_
    refine bind (Q := Anything) (ofExcept ?_) fun _ _ => pure trivial
    unfold Assign.keyOf
    split
    · trivial
    · exact (Value.toIndex_gives _).map fun _ _ => trivial
  | .num .. | .bool .. | .null .. | .noop .. | .string .. | .binary .. | .unary .. | .list ..
  | .call .. =>
    fault trivial

theorem sources (hc : c.Within P) (targets values : List Expr) (strict : Bool) :
    (Assign.sources c targets values strict).Keeps P fun r => ∀ v ∈ r.1, P v := by
  unfold Assign.sources
  split
  · exact bind (exprs hc values) fun _ hvs => pure hvs
  · split
    · exact fault (f := .assignmentMismatch _ _) trivial
    · refine bind (call hc _ _) fun response hresponse => ?_
      dsimp only
      split
      · exact fault (f := .missingOutputParameter _ _) trivial
      · exact pure (Assign.outputValues_all hc.closed _ hresponse _)

/-- What is written to a target is the value itself, or what an operator makes of it and of what the
target has. -/
theorem bindings (hc : c.Within P) (op : AssignOp) :
    ∀ pairs : List (Expr × Value), (∀ pair ∈ pairs, P pair.2) →
      (Assign.bindings c op pairs).Keeps P fun bs => ∀ binding ∈ bs, P binding.2
  | [], _ => pure (List.forall_mem_nil _)
  | (e, v) :: rest, hpairs => by
    obtain ⟨hv, hrest⟩ := List.forall_mem_cons.mp hpairs
    have more : ∀ (t : Target) (w : Value), P w →
        (do return (t, w) :: (← Assign.bindings c op rest) :
          Eval σ (List (Target × Value))).Keeps P fun bs => ∀ binding ∈ bs, P binding.2 :=
      fun t w hw => bind (bindings hc op rest hrest) fun bs hbs =>
        pure (List.forall_mem_cons.mpr ⟨hw, hbs⟩)
    rw [Assign.bindings]
    refine bind (target hc e) fun t _ => ?_
    cases op.binary? with
    | none => exact bind (pure hv) fun w hw => more t w hw
    | some bin =>
      refine bind (ofExcept ?_) fun w hw => more t w hw
      exact (Target.read_all hc.closed hc.scope t).bind fun _ hold => hc.closed.binary bin hold hv

theorem plan (hc : c.Within P) (targets : List Expr) (op : AssignOp) (values : List Expr)
    (strict : Bool) : (Assign.plan c targets op values strict).Keeps P fun p =>
      ∀ binding ∈ p.bindings, P binding.2 := by
  unfold Assign.plan
  refine bind (sources hc targets values strict) fun r hr => ?_
  refine bind (bindings hc op _ fun pair hpair => ?_) fun bs hbs => pure hbs
  exact hr pair.2 (List.of_mem_zip hpair).2

end Eval.Keeps

/-! ## Simple statements -/

/-- The values that an effect takes along have a property. -/
def Effect.All (P : Value → Prop) : Effect → Prop
  | .value v | .ret v | .exit v => ∀ w ∈ v, P w
  | .delay _ v => P v
  | .jump _ | .sub _ | .suspend => True

/-- All that an evaluation leaves has the property `P`, and its result the property `Q`. Unlike
`Eval.Keeps` it is about an evaluation that has happened. -/
structure Evaluated.All {σ α : Type} (P : Value → Prop) (Q : α → Prop)
    (r : Evaluated σ α) : Prop where
  result : Fares (Interrupt.OfValues P) Q r.result
  replay : ∀ v ∈ r.replay, P v
  scope : r.store.scope.All P

section

variable {σ α β : Type} {env : Setting σ} {store : Store σ} {replay : List Value}
  {P : Value → Prop} {Q : α → Prop} {Q' : β → Prop}

/-- An evaluation of a statement or a header. Its results stay on the list only if it stopped for a
call. -/
theorem Store.run_all {e : EvalContext σ → Eval σ α} (hstore : store.scope.All P)
    (hreplay : ∀ v ∈ replay, P v) (he : (e (env.context store)).Keeps P Q) :
    let r := store.run env replay Interrupt.isCall fun c => (e c).run
    Fares (Interrupt.OfValues P) Q r.1 ∧ (∀ v ∈ r.2.1, P v) ∧ r.2.2.scope.All P := by
  intro r
  obtain ⟨hresult, hafter⟩ := he ⟨replay, 0, store.world⟩ hreplay
  rcases hrun : (e (env.context store)).run.run ⟨replay, 0, store.world⟩
    with ⟨result, after⟩
  rw [hrun] at hresult hafter
  have hr : r = _ := Store.run_eq hrun
  rw [hr]
  refine ⟨hresult, ?_, hstore⟩
  dsimp only
  split
  · exact hafter
  · exact List.forall_mem_nil _

theorem Store.eval_all {e : EvalContext σ → Eval σ α} (hstore : store.scope.All P)
    (hreplay : ∀ v ∈ replay, P v) (he : (e (env.context store)).Keeps P Q) :
    (store.eval env replay e).All P Q := by
  obtain ⟨hresult, hafter, hscope⟩ := Store.run_all hstore hreplay he
  exact ⟨hresult, hafter, hscope⟩

theorem Store.pure_all {a : α} (hstore : store.scope.All P)
    (hreplay : ∀ v ∈ replay, P v) (ha : Q a) : (store.pure replay a).All P Q :=
  ⟨ha, hreplay, hstore⟩

theorem Evaluated.All.commit {r : Evaluated σ α}
    {k : α → Store σ → Except Fault β × Store σ} (h : r.All P Q)
    (hk : ∀ a s, Q a → s.scope.All P →
      Gives P Q' (k a s).1 ∧ (k a s).2.scope.All P) : (r.commit k).All P Q' := by
  have hresult := h.result
  unfold Evaluated.commit
  split
  · rename_i i hi
    rw [hi] at hresult
    exact ⟨hresult, h.replay, h.scope⟩
  · rename_i a ha
    rw [ha] at hresult
    obtain ⟨hgives, hscope⟩ := hk a r.store hresult h.scope
    split
    · rename_i b store hb
      rw [hb] at hgives hscope
      exact ⟨hgives, h.replay, hscope⟩
    · rename_i f store hf
      rw [hf] at hgives hscope
      exact ⟨hgives, h.replay, hscope⟩

end

namespace Store

variable {P : Value → Prop} {scope : Scope}

/-- Constants are set and then declared, one after the other, and a fault may come from either. -/
theorem freeze_all (h : scope.All P) {pairs : List (String × Value)}
    (hpairs : ∀ pair ∈ pairs, P pair.2) :
    Gives P Anything (freeze scope pairs).1 ∧ (freeze scope pairs).2.All P := by
  induction pairs generalizing scope with
  | nil => exact ⟨trivial, h⟩
  | cons pair rest ih =>
    obtain ⟨name, v⟩ := pair
    obtain ⟨hv, hrest⟩ := List.forall_mem_cons.mp hpairs
    have hset := h.set name hv
    unfold freeze
    split
    · rename_i f hf
      rw [hf] at hset
      exact ⟨hset, h⟩
    · rename_i s hs
      rw [hs] at hset
      have hdeclared := Scope.All.declareConst hset name
      split
      · rename_i f hf
        rw [hf] at hdeclared
        exact ⟨hdeclared, hset⟩
      · rename_i s' hs'
        rw [hs'] at hdeclared
        exact ih hdeclared hrest

theorem input_all (closed : Value.Closed P) (h : scope.All P) (name : String) :
    Gives P P (input scope name).1 ∧ (input scope name).2.All P := by
  have hopened : Gives P (Scope.All P)
      (if scope.contains name then Except.ok scope else scope.set name .null) := by
    split
    · exact h
    · exact h.set name closed.null
  unfold input
  dsimp only
  split
  · rename_i f hf
    rw [hf] at hopened
    exact ⟨hopened, h⟩
  · rename_i s hs
    rw [hs] at hopened
    exact ⟨Scope.All.get hopened name, hopened⟩

theorem together_all (closed : Value.Closed P) {vs : List Value} (h : ∀ v ∈ vs, P v) :
    P (together vs) := by
  unfold together
  split
  · exact h _ List.mem_cons_self
  · exact closed.array h

end Store

theorem AssignPlan.recordValue_all {P : Value → Prop} (closed : Value.Closed P) {p : AssignPlan}
    (h : ∀ binding ∈ p.bindings, P binding.2) : P p.recordValue := by
  unfold recordValue
  split
  · rename_i t v hone
    exact h (t, v) (hone ▸ List.mem_cons_self)
  · refine closed.array fun v hv => ?_
    obtain ⟨binding, hbinding, rfl⟩ := List.mem_map.mp hv
    exact h binding hbinding

theorem Setting.context_within {σ : Type} {P : Value → Prop} {env : Setting σ}
    {store : Store σ} (closed : Value.Closed P) (host : env.host.Answers P)
    (hstore : store.scope.All P) : (env.context store).Within P :=
  ⟨closed, hstore, host⟩

/-- **What a simple statement leaves behind has the property**: its effect or its fault, the results
that wait, and the variables. -/
theorem Stmt.execute_all {σ : Type} {P : Value → Prop} {env : Setting σ} {stmt : Stmt}
    {store : Store σ} {replay : List Value} {r : Evaluated σ Effect} (closed : Value.Closed P)
    (host : env.host.Answers P) (hstore : store.scope.All P) (hreplay : ∀ v ∈ replay, P v)
    (hexec : stmt.execute env store replay = some r) : r.All P (Effect.All P) := by
  have hc := Setting.context_within closed host hstore
  cases stmt with
  | compound | condition | cycle | doCycle | retry | tryCatch | included | comment | doc =>
    cases hexec
  | assign targets op values line =>
    cases hexec
    refine (Store.eval_all hstore hreplay (.plan hc targets op values _)).commit ?_
    intro p s hp hs
    obtain ⟨hresult, hscope⟩ := Target.bind_all closed hs hp
    refine ⟨hresult.map fun _ _ => ?_, hscope⟩
    rintro w ⟨⟩
    exact AssignPlan.recordValue_all closed hp
  | const bindings line =>
    cases hexec
    refine (Store.eval_all hstore hreplay (.exprs hc _)).commit ?_
    intro vs s hvs hs
    have hpairs : ∀ pair ∈ (bindings.map ConstBinding.name).zip vs, P pair.2 :=
      fun pair hpair => hvs pair.2 (List.of_mem_zip hpair).2
    obtain ⟨hresult, hscope⟩ := Store.freeze_all hs hpairs
    refine ⟨hresult.map fun _ _ => ?_, hscope⟩
    rintro w ⟨⟩
    exact Store.together_all closed hvs
  | label | noop | function =>
    cases hexec
    exact Store.pure_all hstore hreplay nofun
  | goto | gosub | suspend =>
    cases hexec
    exact Store.pure_all hstore hreplay trivial
  | ret value =>
    cases value with
    | none =>
      cases hexec
      exact Store.pure_all hstore hreplay nofun
    | some e =>
      cases hexec
      refine (Store.eval_all hstore hreplay (.expr hc e)).commit fun v s hv hs => ⟨?_, hs⟩
      rintro w ⟨⟩
      exact hv
  | exit value =>
    cases value with
    | none =>
      cases hexec
      exact Store.pure_all hstore hreplay nofun
    | some e =>
      cases hexec
      refine (Store.eval_all hstore hreplay (.expr hc e)).commit fun v s hv hs => ⟨?_, hs⟩
      rintro w ⟨⟩
      exact hv
  -- the fault that is raised has texts, so nothing is asked of the message
  | error message code line =>
    cases hexec
    refine (Store.eval_all (Q := Anything) hstore hreplay ?_).commit ?_
    · exact .bind (.expr hc message) fun _ _ => .bind (.option hc code) fun _ _ => .pure trivial
    · exact fun parts s _ hs => ⟨closed.error _, hs⟩
  | throw value line =>
    cases hexec
    exact (Store.eval_all hstore hreplay (.expr hc value)).commit fun v s hv hs => ⟨hv, hs⟩
  | delay duration line =>
    cases hexec
    refine (Store.eval_all hstore hreplay (.expr hc duration)).commit fun v s hv hs => ?_
    split
    · exact ⟨trivial, hs⟩
    · split
      · exact ⟨trivial, hs⟩
      · exact ⟨hv, hs⟩
  | status text line =>
    cases hexec
    refine (Store.eval_all hstore hreplay (.expr hc text)).commit fun v s hv hs => ⟨?_, hs⟩
    rintro w ⟨⟩
    exact closed.str _
  | declareWeb name params outputs calledAs url line =>
    cases url with
    | none =>
      cases hexec
      exact ⟨nofun, hreplay, hstore⟩
    | some e =>
      cases hexec
      exact (Store.eval_all hstore hreplay (.expr hc e)).commit fun v s hv hs => ⟨nofun, hs⟩
  | call name args line =>
    cases hexec
    refine (Store.eval_all hstore hreplay (.call hc name args)).commit fun v s hv hs =>
      ⟨?_, hs⟩
    rintro w ⟨⟩
    exact hv
  -- an input that is not there is set to null, and then read
  | input name line =>
    cases hexec
    refine (Store.pure_all (Q := Anything) hstore hreplay trivial).commit ?_
    intro _ s _ hs
    obtain ⟨hresult, hscope⟩ := Store.input_all closed hs name
    refine ⟨hresult.map fun v hv => ?_, hscope⟩
    rintro w ⟨⟩
    exact hv

/-! ## Parameters and attempts

Two things that the machine does with values itself. -/

namespace Machine

variable {P : Value → Prop}

/-- Binding parameters sets variables and collects what they shadow. If one is a constant, what was
bound before it is given back. -/
theorem bindParams_all {scope : Scope} {saved : List (String × Option Value)}
    {pairs : List (String × Value)} (h : scope.All P)
    (hsaved : ∀ entry ∈ saved, ∀ v ∈ entry.2, P v) (hpairs : ∀ pair ∈ pairs, P pair.2) :
    Gives P (fun saved => ∀ entry ∈ saved, ∀ v ∈ entry.2, P v)
        (bindParams scope saved pairs).1 ∧
      (bindParams scope saved pairs).2.All P := by
  induction pairs generalizing scope saved with
  | nil => exact ⟨hsaved, h⟩
  | cons pair rest ih =>
    obtain ⟨param, arg⟩ := pair
    obtain ⟨harg, hrest⟩ := List.forall_mem_cons.mp hpairs
    have hset := h.set param harg
    unfold bindParams
    dsimp only
    split
    · rename_i f hf
      rw [hf] at hset
      exact ⟨hset, h.restoreAll hsaved⟩
    · rename_i s hs
      rw [hs] at hset
      exact ih hset (List.forall_mem_cons.mpr ⟨h.get?, hsaved⟩) hrest

theorem attemptsOf_gives (v : Value) : Gives P Anything (attemptsOf v) := by
  unfold attemptsOf
  split
  · split <;> trivial
  · trivial

end Machine

end Stepwise
