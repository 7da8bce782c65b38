import Stepwise.Proofs.Replay

/-!
# Taking answers apart

Several targets can be assigned from one call of a declared service. The answer is then taken apart:
each target gets the declared output at its own position, and what the answer does not have is
missing. **Targets and outputs are matched by position** (`plan_lenient`, `decomposed_of_taken`),
and being strict changes nothing but that what is missing first is a fault (`plan_missing`).

The evaluator looks up all declared outputs at once and hands the values out one after the other, to
those targets that have an output. That every target gets its own depends on how long the two lists
are at every step. So the section on positions comes first: `extracted`, `rightHand` and `missingAt`
say what belongs to a position without a loop, and `outputsFor_eq` says that the loop does this.
Nothing after it opens the loop.

`Proofs/MissingOutputs` puts the results to use in whole runs, where what is missing shows up as a
warning of the step, and `Proofs/ClosedStatements` needs that the values are parts of the answer.
-/

namespace Stepwise

/-- The output of this name in a response, if it has one. A structure has it as a field. A text is
taken for a document, where the first element of that name counts. -/
def Web.output? (response : Value) (name : String) : Option Value :=
  match response with
  | .struct fields => Assoc.get? name fields
  | .str xml => (Assoc.get? name (Xml.elementTexts (Xml.events xml))).map .str
  | _ => none

theorem Web.outputs_eq (response : Value) (names : List String) :
    Web.outputs response names = names.map (Web.output? response) := by
  cases response <;> rfl

namespace Assign

/-! ## Positions -/

section

variable (signature : WebSignature) (response : Value)

/-- The output for the target at a position, counted from zero, if one is declared and present. -/
def extracted (i : Nat) : Option Value :=
  signature.outputs[i]?.bind (Web.output? response)

/-- What goes to the target at a position: an empty text for what is missing. -/
def rightHand (i : Nat) : Value :=
  (extracted signature response i).getD (.str "")

/-- How a missing output is called: by its name, or by its number from one where none is
declared. -/
def outputName (i : Nat) : String :=
  signature.outputs[i]?.getD ("#" ++ toString (i + 1))

/-- The positions without an output, in order. A position has none if the service declares fewer
outputs than there are targets, or if the answer does not have the one declared for it. -/
def missingAt (service : String) (count : Nat) : List MissingOutput :=
  ((List.range count).filter fun i => (extracted signature response i).isNone).map fun i =>
    ⟨service, outputName signature i⟩

/-- Values that are found for the declared outputs alone, and handed out one after the other, come
to the targets they are declared for. -/
theorem handOut_eq (declared : Nat → Option String) (find : String → Option Value)
    (start count : Nat) :
    handOut start ((List.range' start count).map declared)
        ((((List.range' start count).map declared).filterMap id).map find) =
      (List.range' start count).map fun i =>
        ⟨(declared i).getD ("#" ++ toString (i + 1)), (declared i).bind find⟩ := by
  -- the values left are always those of the targets left, whether this target takes one or not
  induction count generalizing start with
  | zero => rfl
  | succ count ih =>
    have hrest := ih (start + 1)
    rw [List.range'_succ, List.map_cons, List.map_cons]
    cases h : declared start with
    | none =>
      rw [List.filterMap_cons_none (f := id) rfl, handOut, hrest]
      rfl
    | some name =>
      rw [List.filterMap_cons_some (f := id) rfl, List.map_cons, handOut, List.tail_cons, hrest]
      rfl

/-- **Handing out the values one after the other gives each target the output at its own position.**
The loop goes through the targets with a list of values that is shorter wherever a target has no
declared output, and stays in step all the same. -/
theorem outputsFor_eq (count : Nat) :
    outputsFor signature response count =
      (List.range count).map fun i =>
        ⟨outputName signature i, extracted signature response i⟩ := by
  rw [outputsFor, declaredFor, Web.outputs_eq, List.range_eq_range']
  exact handOut_eq (fun i => signature.outputs[i]?) (Web.output? response) 0 count

theorem outputValues_eq (count : Nat) :
    outputValues (outputsFor signature response count) =
      (List.range count).map (rightHand signature response) := by
  rw [outputsFor_eq, outputValues, List.map_map]
  rfl

theorem missingOutputs_eq (service : String) (count : Nat) :
    missingOutputs service (outputsFor signature response count) =
      missingAt signature response service count := by
  rw [outputsFor_eq, missingOutputs, List.filter_map, List.map_map]
  rfl

end

/-! ## Plans

A plan is made in two steps, of which the first gives the values on the right and the second the
targets they go to. Both are cut at the call, as `answered` and `taken`, so that a statement about
the plan of a decomposition starts from the answer of its call. -/

section

variable {σ : Type} {c : EvalContext σ} {op : AssignOp}

/-- The value `w` that a target is bound to for the value `v` on the right: this one, or the old
value combined with it. The old value is read in the scope in which the plan is made, before any of
its targets is written. -/
def Combines (s : Scope) (op : AssignOp) (t : Target) (v w : Value) : Prop :=
  match op.binary? with
  | none => w = v
  | some bin => ∃ old, t.read s = .ok old ∧ Value.binary bin old v = .ok w

/-- What gives a result has given one in all its parts. Every statement about a plan that was made
takes the evaluation apart with this, from the outside in. -/
theorem run_bind_eq_ok {ε S α β : Type} {e : ExceptT ε (StateM S) α}
    {k : α → ExceptT ε (StateM S) β} {s s' : S} {b : β}
    (h : (e >>= k).run.run s = (.ok b, s')) :
    ∃ a mid, e.run.run s = (.ok a, mid) ∧ (k a).run.run mid = (.ok b, s') := by
  rcases he : e.run.run s with ⟨x | a, mid⟩
  · rw [run_bind_error he] at h
    cases h
  · rw [run_bind_ok he] at h
    exact ⟨a, mid, rfl, h⟩

theorem of_run_ofExcept {α : Type} {r : Except Fault α} {a : α} {st st' : EvalState σ}
    (h : (Eval.ofExcept r : Eval σ α).run.run st = (.ok a, st')) : r = .ok a := by
  cases r with
  | error f => cases h
  | ok b =>
    cases h
    rfl

/-- The evaluation behind `Combines`: an operator reads its target and applies itself, in the scope
of the evaluation. -/
def combined (c : EvalContext σ) (op : AssignOp) (t : Target) (v : Value) : Eval σ Value :=
  match op.binary? with
  | none => pure v
  | some bin => Eval.ofExcept do Value.binary bin (← t.read c.scope) v

theorem bindings_cons (e : Expr) (v : Value) (rest : List (Expr × Value)) :
    bindings c op ((e, v) :: rest) = (do
      let t ← target c e
      let w ← combined c op t v
      let more ← bindings c op rest
      return (t, w) :: more) := by
  rw [bindings]
  refine bind_congr fun t => ?_
  unfold combined
  cases op.binary? <;> rfl

theorem combines_of_combined {t : Target} {v w : Value} {st st' : EvalState σ}
    (h : (combined c op t v).run.run st = (.ok w, st')) : Combines c.scope op t v w := by
  unfold combined at h
  unfold Combines
  cases hop : op.binary? with
  | none =>
    rw [hop] at h
    cases h
    rfl
  | some bin =>
    rw [hop] at h
    dsimp only at h
    cases hread : t.read c.scope with
    | error f =>
      rw [hread] at h
      cases h
    | ok old =>
      rw [hread] at h
      exact ⟨old, rfl, of_run_ofExcept h⟩

/-- Every target is bound, to its own value. The state in which a target is evaluated is not the one
at the start, since indices of earlier targets may have asked the host; so there is only some
state. -/
theorem bindings_ok {pairs : List (Expr × Value)} {bound : List (Target × Value)}
    {st st' : EvalState σ} (h : (bindings c op pairs).run.run st = (.ok bound, st')) :
    bound.length = pairs.length ∧
      ∀ (i : Nat) e v t w, pairs[i]? = some (e, v) → bound[i]? = some (t, w) →
        (∃ before after, (target c e).run.run before = (.ok t, after)) ∧
          Combines c.scope op t v w := by
  induction pairs generalizing bound st with
  | nil =>
    cases h
    exact ⟨rfl, fun i e v t w hpair _ => by simp at hpair⟩
  | cons pair rest ih =>
    obtain ⟨e, v⟩ := pair
    rw [bindings_cons] at h
    obtain ⟨t, _, htarget, h⟩ := run_bind_eq_ok h
    obtain ⟨w, _, hvalue, h⟩ := run_bind_eq_ok h
    obtain ⟨more, _, hmore, h⟩ := run_bind_eq_ok h
    cases h
    obtain ⟨hlength, hrest⟩ := ih hmore
    refine ⟨congrArg (· + 1) hlength, fun i e' v' t' w' hpair hbound => ?_⟩
    cases i with
    | zero =>
      cases hpair
      cases hbound
      exact ⟨⟨_, _, htarget⟩, combines_of_combined hvalue⟩
    | succ i => exact hrest i e' v' t' w' hpair hbound

variable {targets args : List Expr} {name : String} {line : Line} {signature : WebSignature}
  {response : Value} {st mid st' : EvalState σ}

/-- With two targets or more and a declared service the call is taken apart. With one target it is
an ordinary assignment, of the whole answer. -/
theorem decomposition?_call (several : 2 ≤ targets.length)
    (web : c.scope.web? name = some signature) :
    decomposition? c targets [.call name args line] = some (name, args, signature) := by
  simp [decomposition?, Nat.not_lt.mpr several, web]

/-- The right-hand side of a decomposition from behind the call. Being strict counts here and
nowhere else. -/
def answered (name : String) (signature : WebSignature) (count : Nat) (strict : Bool)
    (response : Value) :
    Eval σ (List Value × List MissingOutput) :=
  let outs := outputsFor signature response count
  match strict, missingOutputs name outs with
  | true, m :: _ => Eval.fault (.missingOutputParameter m.service m.param)
  | _, _ => pure (outputValues outs, missingOutputs name outs)

theorem answered_lenient {count : Nat} {strict : Bool}
    (h : strict = false ∨ missingAt signature response name count = []) (st : EvalState σ) :
    (answered name signature count strict response).run.run st =
      (.ok ((List.range count).map (rightHand signature response),
        missingAt signature response name count), st) := by
  simp only [answered, outputValues_eq, missingOutputs_eq]
  obtain rfl | h := h
  · rfl
  · rw [h]
    cases strict <;> rfl

theorem answered_missing {count : Nat} {m : MissingOutput} {more : List MissingOutput}
    (h : missingAt signature response name count = m :: more) (st : EvalState σ) :
    (answered name signature count true response).run.run st =
      (.error (.fault (.missingOutputParameter m.service m.param)), st) := by
  simp only [answered, missingOutputs_eq, h]
  rfl

/-- The plan of a decomposition from behind the call. It does not ask what is missing: a strict plan
that gets here misses nothing. -/
def taken (c : EvalContext σ) (targets : List Expr) (op : AssignOp) (name : String)
    (signature : WebSignature) (response : Value) : Eval σ AssignPlan := do
  let bound ← bindings c op
      (targets.zip ((List.range targets.length).map (rightHand signature response)))
  return ⟨bound, missingAt signature response name targets.length⟩

theorem sources_call (several : 2 ≤ targets.length) (web : c.scope.web? name = some signature)
    (strict : Bool) :
    sources c targets [.call name args line] strict =
      Eval.call c name args >>= fun response =>
        answered name signature targets.length strict response := by
  have hne : targets.length ≠ [Expr.call name args line].length := by
    simp only [List.length_cons, List.length_nil]
    omega
  rw [sources, if_neg hne, decomposition?_call several web]
  rfl

/-- Without an answer there is nothing to take apart, strict or not. The fault or the call of the
answer is that of the plan. -/
theorem plan_stopped (several : 2 ≤ targets.length) (web : c.scope.web? name = some signature)
    {i : Interrupt} (hcall : (Eval.call c name args).run.run st = (.error i, mid)) (strict : Bool) :
    (plan c targets op [.call name args line] strict).run.run st = (.error i, mid) := by
  rw [plan, sources_call several web]
  exact run_bind_error (run_bind_error hcall)

/-- **The targets are bound by position** if nothing is missing, or if it does not matter. In the
second case an empty text goes to those that have no output, and the plan says which they are. -/
theorem plan_lenient (several : 2 ≤ targets.length) (web : c.scope.web? name = some signature)
    (hcall : (Eval.call c name args).run.run st = (.ok response, mid)) {strict : Bool}
    (h : strict = false ∨ missingAt signature response name targets.length = []) :
    (plan c targets op [.call name args line] strict).run.run st =
      (taken c targets op name signature response).run.run mid := by
  rw [plan, sources_call several web]
  exact run_bind_ok ((run_bind_ok hcall).trans (answered_lenient h mid))

/-- **What is missing first is the fault of a strict plan.** It comes before any target is looked
at, so none of their expressions is evaluated. -/
theorem plan_missing (several : 2 ≤ targets.length) (web : c.scope.web? name = some signature)
    (hcall : (Eval.call c name args).run.run st = (.ok response, mid)) {m : MissingOutput}
    {more : List MissingOutput} (h : missingAt signature response name targets.length = m :: more) :
    (plan c targets op [.call name args line] true).run.run st =
      (.error (.fault (.missingOutputParameter m.service m.param)), mid) := by
  rw [plan, sources_call several web]
  exact run_bind_error ((run_bind_ok hcall).trans (answered_missing h mid))

/-- What the plan of a decomposition is made of. It says what the plan binds and what it misses by
positions alone, and does not mention the order in which anything is evaluated. -/
structure Decomposed (c : EvalContext σ) (targets : List Expr) (op : AssignOp) (name : String)
    (signature : WebSignature) (response : Value) (p : AssignPlan) : Prop where
  /-- Every target is bound. -/
  length : p.bindings.length = targets.length
  /-- It is what its expression denotes, and it gets the output at its own position. -/
  bound : ∀ (i : Nat) e t w, targets[i]? = some e → p.bindings[i]? = some (t, w) →
    (∃ before after, (target c e).run.run before = (.ok t, after)) ∧
      Combines c.scope op t (rightHand signature response i) w
  missing : p.missing = missingAt signature response name targets.length

theorem decomposed_of_taken {p : AssignPlan}
    (h : (taken c targets op name signature response).run.run st = (.ok p, st')) :
    Decomposed c targets op name signature response p := by
  obtain ⟨bound, mid, hbindings, h⟩ := run_bind_eq_ok h
  cases h
  obtain ⟨hlength, hbound⟩ := bindings_ok hbindings
  -- there are as many values as targets, so zipping them loses none
  refine ⟨by simpa using hlength, fun i e t w he hw => hbound i e _ t w ?_ hw, rfl⟩
  obtain ⟨hi, he⟩ := List.getElem?_eq_some_iff.mp he
  simp [hi, he]

end

end Assign

end Stepwise
