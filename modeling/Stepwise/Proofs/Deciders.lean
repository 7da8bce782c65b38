import Stepwise.Proofs.CallTree

/-!
# The variables that decide which calls are made

Most variables of an expression have no say in which calls it makes. Those that have are read on the
left of a logical operator with calls on its right, or in a test with calls in a later one: the
`deciders`. **In two scopes that agree on the deciders an evaluation makes the same calls**
(`Agree`), as long as the calls have the same results and no evaluation fails before the other.

The names of the calls are the same and their arguments need not be. This is what a replay checks:
an answer that was recorded is handed out again to the call at its place in the list, by its
position, so a list of recorded answers stays good as long as the calls come in the same order
(`Proofs/Evaluating`).

## Why failures agree with everything

Variables that decide nothing may have different values on the two sides. An operation on them may
fail on one side and not on the other, and the side that failed makes no more calls. Nothing could
be said about later calls then, and nothing has to be: the evaluation that failed is not repeated.
So a failure is related to every tree, from either side.
-/

namespace Stepwise

/-! ## Calls and variables of an expression

All of this is read off the syntax. `hasCalls` says whether there is a call, and not whether one is
made. -/

namespace Expr

mutual

/-- Whether evaluation may make a call. It is the syntax that counts: a call on the right of a
logical operator counts also if the left side always decides. -/
def hasCalls : Expr → Bool
  | .binary left _ right _ => left.hasCalls || right.hasCalls
  | .unary _ operand _ => operand.hasCalls
  | .field object _ _ _ => object.hasCalls
  | .index object key _ => object.hasCalls || key.hasCalls
  | .list items _ => listHasCalls items
  | .call .. => true
  | .num .. | .bool .. | .null .. | .noop .. | .string .. | .var .. => false

def listHasCalls : List Expr → Bool
  | [] => false
  | e :: rest => e.hasCalls || listHasCalls rest

end

mutual

def vars : Expr → List String
  | .var name _ => [name]
  | .binary left _ right _ => left.vars ++ right.vars
  | .unary _ operand _ => operand.vars
  | .field object _ _ _ => object.vars
  | .index object key _ => object.vars ++ key.vars
  | .list items _ => listVars items
  | .call _ args _ => listVars args
  | .num .. | .bool .. | .null .. | .noop .. | .string .. => []

def listVars : List Expr → List String
  | [] => []
  | e :: rest => e.vars ++ listVars rest

end

/-- The variables of a test that decides whether `later` calls are made. Where there are none to
decide about, the test may come out as it likes. -/
def deciding (test : Expr) (later : Bool) : List String := if later then test.vars else []

mutual

/-- The variables read by tests that something with calls depends on. Both sides of a logical
operator are counted in full, with what decides in them. -/
def deciders : Expr → List String
  | .binary left op right _ =>
    let own := if op = .and ∨ op = .or then left.deciding right.hasCalls else []
    own ++ left.deciders ++ right.deciders
  | .unary _ operand _ => operand.deciders
  | .field object _ _ _ => object.deciders
  | .index object key _ => object.deciders ++ key.deciders
  | .list items _ => listDeciders items
  | .call _ args _ => listDeciders args
  | .num .. | .bool .. | .null .. | .noop .. | .string .. | .var .. => []

def listDeciders : List Expr → List String
  | [] => []
  | e :: rest => e.deciders ++ listDeciders rest

end

end Expr

namespace Branch

def anyHasCalls : List Branch → Bool
  | [] => false
  | branch :: rest => branch.test.hasCalls || anyHasCalls rest

def deciders : List Branch → List String
  | [] => []
  | branch :: rest =>
    branch.test.deciding (anyHasCalls rest) ++ branch.test.deciders ++ deciders rest

end Branch

namespace Scope

/-! ## Agreement of scopes -/

/-- Two scopes that have the same values for some names. A name without a value in one of them must
have none in the other. -/
def AgreeOn (names : List String) (s s' : Scope) : Prop := ∀ x ∈ names, s.get? x = s'.get? x

variable {s s' : Scope} {xs ys : List String}

theorem agreeOn_append : AgreeOn (xs ++ ys) s s' ↔ AgreeOn xs s s' ∧ AgreeOn ys s s' :=
  List.forall_mem_append

theorem AgreeOn.get {x : String} (h : AgreeOn [x] s s') : s.get x = s'.get x := by
  have hx := h x (List.mem_singleton_self x)
  simp only [Scope.get, hx]

end Scope

namespace CallTree

open Scope (AgreeOn agreeOn_append)

variable {α β γ δ : Type} {s s' : Scope}

/-! ## Scopes that agree on all variables

A test that decides is evaluated alike in both scopes, with its own calls. This is needed where the
value of the test counts, and not only the calls made for it. -/

mutual

/-- An evaluation reads a scope by the variables of the expression and in no other way. Not even the
declared services count: only an assignment to several targets looks at them. -/
theorem expr_congr : ∀ e : Expr, AgreeOn e.vars s s' → expr s e = expr s' e
  | .num _ _, _ => by rw [expr, expr]
  | .bool _ _, _ => by rw [expr, expr]
  | .null _, _ => by rw [expr, expr]
  | .noop _, _ => by rw [expr, expr]
  | .string _ _, _ => by rw [expr, expr]
  | .var name _, h => by
    rw [expr, expr, h.get]
  | .binary left op right _, h => by
    obtain ⟨hl, hr⟩ := agreeOn_append.mp h
    simp only [expr, expr_congr left hl, expr_congr right hr]
  | .unary op operand _, h => by
    simp only [expr, expr_congr operand h]
  | .field object attr _ _, h => by
    simp only [expr, expr_congr object h]
  | .index object index _, h => by
    obtain ⟨ho, hi⟩ := agreeOn_append.mp h
    simp only [expr, expr_congr object ho, expr_congr index hi]
  | .list items _, h => by
    simp only [expr, exprs_congr items h]
  | .call name args _, h => by
    simp only [expr, exprs_congr args h]

theorem exprs_congr : ∀ es : List Expr, AgreeOn (Expr.listVars es) s s' →
    exprs s es = exprs s' es
  | [], _ => by rw [exprs, exprs]
  | e :: rest, h => by
    obtain ⟨he, hrest⟩ := agreeOn_append.mp h
    simp only [exprs, expr_congr e he, exprs_congr rest hrest]

end

/-! ## Expressions without calls -/

theorem bind_done {t : CallTree α} {f : α → CallTree β} (ht : ∃ r, t = done r)
    (hf : ∀ a, ∃ r, f a = done r) : ∃ r, t >>= f = done r := by
  obtain ⟨r, rfl⟩ := ht
  cases r with
  | ok a => exact hf a
  | error x => exact ⟨.error x, rfl⟩

mutual

/-- Without calls an evaluation is over at once, with a value or with a failure. This is said of the
tree, so it holds whatever host and functions there are. -/
theorem expr_done (s : Scope) : ∀ e : Expr, e.hasCalls = false → ∃ r, expr s e = done r
  | .num x _, _ => ⟨.ok (.num x), by rw [expr]; rfl⟩
  | .bool b _, _ => ⟨.ok (.bool b), by rw [expr]; rfl⟩
  | .null _, _ => ⟨.ok .null, by rw [expr]; rfl⟩
  | .noop _, _ => ⟨.ok .null, by rw [expr]; rfl⟩
  | .string text _, _ => ⟨.ok (.str text), by rw [expr]; rfl⟩
  | .var name _, _ => ⟨s.get name, by rw [expr]⟩
  | .binary left op right _, h => by
    simp only [Expr.hasCalls, Bool.or_eq_false_iff] at h
    have hleft := expr_done s left h.1
    have hright := expr_done s right h.2
    -- what a logical operator makes of its right side, if it comes to that
    have truth : ∃ r, (do return Value.bool (← expr s right).isTruthy) = done r :=
      bind_done hright fun _ => ⟨_, rfl⟩
    cases op with
    | and =>
      simp only [expr]
      refine bind_done hleft fun l => ?_
      split
      · exact truth
      · exact ⟨_, rfl⟩
    | or =>
      simp only [expr]
      refine bind_done hleft fun l => ?_
      split
      · exact ⟨_, rfl⟩
      · exact truth
    | _ =>
      simp only [expr]
      exact bind_done hleft fun l => bind_done hright fun r => ⟨_, rfl⟩
  | .unary op operand _, h => by
    rw [expr]
    exact bind_done (expr_done s operand h) fun v => ⟨_, rfl⟩
  | .field object attr _ _, h => by
    rw [expr]
    exact bind_done (expr_done s object h) fun v => ⟨_, rfl⟩
  | .index object index _, h => by
    simp only [Expr.hasCalls, Bool.or_eq_false_iff] at h
    rw [expr]
    exact bind_done (expr_done s object h.1) fun v =>
      bind_done (expr_done s index h.2) fun i => ⟨_, rfl⟩
  | .list items _, h => by
    rw [expr]
    exact bind_done (exprs_done s items h) fun vs => ⟨_, rfl⟩
  | .call .., h => by cases h

theorem exprs_done (s : Scope) :
    ∀ es : List Expr, Expr.listHasCalls es = false → ∃ r, exprs s es = done r
  | [], _ => ⟨.ok [], by rw [exprs]; rfl⟩
  | e :: rest, h => by
    simp only [Expr.listHasCalls, Bool.or_eq_false_iff] at h
    rw [exprs]
    exact bind_done (expr_done s e h.1) fun v =>
      bind_done (exprs_done s rest h.2) fun vs => ⟨_, rfl⟩

end

/-! ## Trees that make the same calls -/

/-- Two evaluations that make calls of the same names as long as none of them fails, and whose
results are then related. -/
inductive Agree (R : α → β → Prop) : CallTree α → CallTree β → Prop where
  | left (x : Fault) (t : CallTree β) : Agree R (done (.error x)) t
  | right (t : CallTree α) (x : Fault) : Agree R t (done (.error x))
  | done {a : α} {b : β} (h : R a b) : Agree R (done (.ok a)) (done (.ok b))
  | call (name : String) (args args' : List Value) {k : Value → CallTree α}
      {k' : Value → CallTree β}
      (rest : ∀ v, Agree R (k v) (k' v)) : Agree R (call name args k) (call name args' k')

namespace Agree

/-- The two ask for the same name wherever both ask. One may have stopped before, and then there is
nothing to compare. -/
theorem asks {R : α → β → Prop} {t : CallTree α} {t' : CallTree β} (h : Agree R t t')
    {vs : List Value} {i : Nat} {n n' : String} (hn : (t.asks vs)[i]? = some n)
    (hn' : (t'.asks vs)[i]? = some n') : n = n' := by
  induction h generalizing vs i with
  | left => cases hn
  | right => cases hn'
  | done => cases hn
  | call name args args' rest ih =>
    cases vs with
    | nil =>
      rw [CallTree.asks] at hn hn'
      rw [hn] at hn'
      cases hn'
      rfl
    | cons v vs =>
      cases i with
      | zero =>
        cases hn
        cases hn'
        rfl
      | succ i => exact ih v hn hn'

theorem refl (t : CallTree α) : Agree Eq t t := by
  induction t with
  | done r =>
    cases r with
    | ok a => exact .done rfl
    | error x => exact .left x _
  | call name args k ih => exact .call name args args ih

/-- Sequencing keeps agreement. If one part failed, all of that side has failed. -/
theorem bind {R : α → β → Prop} {S : γ → δ → Prop} {t : CallTree α} {t' : CallTree β}
    {f : α → CallTree γ} {f' : β → CallTree δ} (h : Agree R t t')
    (hf : ∀ a b, R a b → Agree S (f a) (f' b)) : Agree S (t >>= f) (t' >>= f') := by
  induction h with
  | left x t => exact .left x _
  | right t x => exact .right _ x
  | done h => exact hf _ _ h
  | call name args args' rest ih => exact .call name args args' ih

/-- Nothing is asked where nothing is related: the two make the same calls, and their values may be
any. For most expressions no more is true, since variables that decide nothing may differ. -/
abbrev Anyhow (t : CallTree α) (t' : CallTree β) : Prop := Agree (fun _ _ => True) t t'

theorem of_done {t : CallTree α} {t' : CallTree β} (h : ∃ r, t = CallTree.done r)
    (h' : ∃ r, t' = CallTree.done r) : Anyhow t t' := by
  obtain ⟨r, rfl⟩ := h
  obtain ⟨r', rfl⟩ := h'
  cases r with
  | error x => exact .left x _
  | ok a =>
    cases r' with
    | error x => exact .right _ x
    | ok b => exact .done trivial

theorem ofExcept (r : Except Fault α) (r' : Except Fault β) :
    Anyhow (CallTree.done r) (CallTree.done r') := of_done ⟨r, rfl⟩ ⟨r', rfl⟩

end Agree

open Agree (Anyhow)

/-- A test that decides about later calls has the same value in both scopes; one that decides about
none may differ. Both logical operators and the tests of a conditional are cases of it. -/
theorem deciding_agree {test : Expr} {later : Bool} {f f' : Value → CallTree α}
    (hown : AgreeOn (test.deciding later) s s') (htest : Anyhow (expr s test) (expr s' test))
    (hcalls : ∀ v, Anyhow (f v) (f' v))
    (hnone : later = false → ∀ v, (∃ r, f v = done r) ∧ ∃ r, f' v = done r) :
    Anyhow (expr s test >>= f) (expr s' test >>= f') := by
  cases later with
  | true =>
    rw [expr_congr test hown]
    -- the two evaluations are the same, so they end with the same value
    refine (Agree.refl _).bind ?_
    rintro v _ rfl
    exact hcalls v
  | false => exact htest.bind fun v v' _ => .of_done (hnone rfl v).1 (hnone rfl v').2

theorem truth_done {e : Expr} (s : Scope) (h : e.hasCalls = false) :
    ∃ r, (do return Value.bool (← expr s e).isTruthy) = done r :=
  bind_done (expr_done s e h) fun _ => ⟨_, rfl⟩

mutual

/-- **In scopes that agree on the deciders an expression makes the same calls.** Only the logical
operators need more than `bind`: what their left side gives decides whether the right side runs. -/
theorem expr_agree : ∀ e : Expr, AgreeOn e.deciders s s' → Anyhow (expr s e) (expr s' e)
  | .num _ _, _ => by
    rw [expr, expr]
    exact .done trivial
  | .bool _ _, _ => by
    rw [expr, expr]
    exact .done trivial
  | .null _, _ => by
    rw [expr, expr]
    exact .done trivial
  | .noop _, _ => by
    rw [expr, expr]
    exact .done trivial
  | .string _ _, _ => by
    rw [expr, expr]
    exact .done trivial
  | .var _ _, _ => by
    rw [expr, expr]
    exact .ofExcept _ _
  | .binary left op right _, h => by
    simp only [Expr.deciders, agreeOn_append] at h
    obtain ⟨⟨hown, hl⟩, hr⟩ := h
    have hleft := expr_agree left hl
    have hright := expr_agree right hr
    -- what a logical operator makes of its right side, if it comes to that
    have truth : Anyhow (do return Value.bool (← expr s right).isTruthy)
        (do return Value.bool (← expr s' right).isTruthy) :=
      hright.bind fun _ _ _ => .done trivial
    cases op with
    | and =>
      simp only [expr]
      -- either the left side is decided alike in both scopes, or the right side makes no calls
      refine deciding_agree hown hleft (fun l => ?_) fun hnone l => ?_
      · split
        · exact truth
        · exact .done trivial
      · split
        · exact ⟨truth_done s hnone, truth_done s' hnone⟩
        · exact ⟨⟨_, rfl⟩, ⟨_, rfl⟩⟩
    | or =>
      simp only [expr]
      refine deciding_agree hown hleft (fun l => ?_) fun hnone l => ?_
      · split
        · exact .done trivial
        · exact truth
      · split
        · exact ⟨⟨_, rfl⟩, ⟨_, rfl⟩⟩
        · exact ⟨truth_done s hnone, truth_done s' hnone⟩
    | _ =>
      simp only [expr]
      -- the values may differ, and so may the result, but both sides are evaluated in any case
      exact hleft.bind fun l l' _ => hright.bind fun r r' _ => .ofExcept _ _
  | .unary op operand _, h => by
    rw [expr, expr]
    exact (expr_agree operand h).bind fun _ _ _ => .ofExcept _ _
  | .field object attr _ _, h => by
    rw [expr, expr]
    exact (expr_agree object h).bind fun _ _ _ => .ofExcept _ _
  | .index object index _, h => by
    obtain ⟨ho, hi⟩ := agreeOn_append.mp h
    rw [expr, expr]
    exact (expr_agree object ho).bind fun _ _ _ => (expr_agree index hi).bind fun _ _ _ =>
      .ofExcept _ _
  | .list items _, h => by
    rw [expr, expr]
    exact (exprs_agree items h).bind fun _ _ _ => .done trivial
  | .call name args _, h => by
    rw [expr, expr]
    exact (exprs_agree args h).bind fun vs vs' _ => .call name vs vs' fun _ => .done trivial

/-- Lists have as many values as expressions, on both sides. The number of values is compared with
that of targets later, so it is kept track of. -/
theorem exprs_agree : ∀ es : List Expr, AgreeOn (Expr.listDeciders es) s s' →
    Agree (fun vs vs' => vs.length = vs'.length) (exprs s es) (exprs s' es)
  | [], _ => by
    rw [exprs, exprs]
    exact .done rfl
  | e :: rest, h => by
    obtain ⟨he, hrest⟩ := agreeOn_append.mp h
    rw [exprs, exprs]
    refine (expr_agree e he).bind fun v v' _ => ?_
    refine (exprs_agree rest hrest).bind fun vs vs' hlength => ?_
    exact .done (congrArg (· + 1) hlength)

end

/-! ## Statements and headers

An assignment evaluates its right side, then what its targets need, and what is bound to what
depends on the numbers of both. A decomposition is taken by whether the service is declared; if it
is declared on one side only, that side makes a call and the other fails. -/

theorem callOf_agree (name : String) {args : List Expr}
    (h : AgreeOn (Expr.listDeciders args) s s') :
    Anyhow (callOf s name args) (callOf s' name args) :=
  (exprs_agree args h).bind fun vs vs' _ => .call name vs vs' fun _ => .done trivial

theorem target_agree (e : Expr) (h : AgreeOn e.deciders s s') :
    Anyhow (target s e) (target s' e) := by
  induction e using target.induct with
  | case1 name line =>
    simp only [target]
    exact .done trivial
  | case2 object attr attrLine line ih =>
    simp only [target]
    exact (ih h).bind fun _ _ _ => .done trivial
  | case3 object index line ih =>
    obtain ⟨ho, hi⟩ := agreeOn_append.mp h
    simp only [target]
    refine (ih ho).bind fun t t' _ => (expr_agree index hi).bind fun i i' _ => ?_
    exact (Agree.ofExcept _ _).bind fun _ _ _ => .done trivial
  | case4 e hvar hfield hindex =>
    rw [target]
    · exact .left _ _
    all_goals assumption

/-- A decomposition is of a single call. Its arguments are all that is evaluated on the right. -/
theorem decomposition?_eq_some {targets values args : List Expr} {name : String}
    {signature : WebSignature}
    (h : decomposition? s targets values = some (name, args, signature)) :
    ∃ line, values = [.call name args line] := by
  unfold decomposition? at h
  split at h
  · split at h
    · cases h
    obtain ⟨signature', -, heq⟩ := Option.map_eq_some_iff.mp h
    cases heq
    exact ⟨_, rfl⟩
  · cases h

theorem length_handOut (i : Nat) (declared : List (Option String)) (found : List (Option Value)) :
    (Assign.handOut i declared found).length = declared.length := by
  fun_induction Assign.handOut i declared found with
  | case1 => rfl
  | case2 i param rest found ih => rw [List.length_cons, List.length_cons, ih]
  | case3 i rest found ih => rw [List.length_cons, List.length_cons, ih]

theorem length_outputValues (signature : WebSignature) (response : Value) (count : Nat) :
    (Assign.outputValues (Assign.outputsFor signature response count)).length = count := by
  rw [Assign.outputValues, List.length_map, Assign.outputsFor, length_handOut, Assign.declaredFor,
    List.length_map, List.length_range]

/-- Both sides have a value for each target, or for each expression on the right. The values may
differ, but their number decides which targets are evaluated, so it has to be the same. -/
theorem sources_agree (targets : List Expr) {values : List Expr} (strict : Bool)
    (h : AgreeOn (Expr.listDeciders values) s s') :
    Agree (fun a b => a.1.length = b.1.length) (sources s targets values strict)
      (sources s' targets values strict) := by
  -- the comparison of the lengths does not depend on the scope, so both sides split alike
  unfold sources
  split
  · exact (exprs_agree values h).bind fun vs vs' hlength => .done hlength
  rcases hd : decomposition? s targets values with _ | ⟨name, args, signature⟩
  · exact .left _ _
  rcases hd' : decomposition? s' targets values with _ | ⟨name', args', signature'⟩
  · exact .right _ _
  -- the service may have been declared anew, but the call is the same
  obtain ⟨line, rfl⟩ := decomposition?_eq_some hd
  obtain ⟨line', hsame⟩ := decomposition?_eq_some hd'
  cases hsame
  have hargs : AgreeOn (Expr.listDeciders args) s s' := by
    simpa [Expr.listDeciders, Expr.deciders] using h
  dsimp only
  refine (callOf_agree name hargs).bind fun response response' _ => ?_
  have hlength :
      (Assign.outputValues (Assign.outputsFor signature response targets.length)).length =
      (Assign.outputValues (Assign.outputsFor signature' response' targets.length)).length := by
    rw [length_outputValues, length_outputValues]
  generalize Assign.missingOutputs name (Assign.outputsFor signature response _) = missing
  generalize Assign.missingOutputs name (Assign.outputsFor signature' response' _) = missing'
  cases strict with
  | false => exact .done hlength
  | true =>
    cases missing with
    | cons m rest => exact .left _ _
    | nil =>
      cases missing' with
      | cons m rest => exact .right _ _
      | nil => exact .done hlength

theorem bindings_agree (op : AssignOp) {targets : List Expr} {vs vs' : List Value}
    (h : AgreeOn (Expr.listDeciders targets) s s') (hlength : vs.length = vs'.length) :
    Anyhow (bindings s op (targets.zip vs)) (bindings s' op (targets.zip vs')) := by
  induction targets generalizing vs vs' with
  | nil => exact .done trivial
  | cons e rest ih =>
    obtain ⟨he, hrest⟩ := agreeOn_append.mp h
    cases vs with
    | nil =>
      obtain rfl := List.length_eq_zero_iff.mp hlength.symm
      exact .done trivial
    | cons v vs =>
      cases vs' with
      | nil => cases hlength
      | cons v' vs' =>
        have hmore := ih hrest (Nat.succ.inj hlength)
        simp only [List.zip_cons_cons, bindings]
        refine (target_agree e he).bind fun t t' _ => ?_
        cases op.binary? with
        | none => exact hmore.bind fun _ _ _ => .done trivial
        | some bin =>
          refine (Agree.ofExcept _ _).bind fun v v' _ => ?_
          exact hmore.bind fun _ _ _ => .done trivial

theorem plan_agree {targets : List Expr} (op : AssignOp) {values : List Expr} (strict : Bool)
    (h : AgreeOn (Expr.listDeciders values ++ Expr.listDeciders targets) s s') :
    Anyhow (plan s targets op values strict) (plan s' targets op values strict) := by
  obtain ⟨hvalues, htargets⟩ := agreeOn_append.mp h
  refine (sources_agree targets strict hvalues).bind ?_
  rintro ⟨vs, missing⟩ ⟨vs', missing'⟩ hlength
  exact (bindings_agree op htargets hlength).bind fun _ _ _ => .done trivial

theorem chooseBranch_done (s : Scope) (index : Nat) {branches : List Branch}
    (h : Branch.anyHasCalls branches = false) : ∃ r, chooseBranch s index branches = done r := by
  induction branches generalizing index with
  | nil => exact ⟨_, rfl⟩
  | cons branch rest ih =>
    simp only [Branch.anyHasCalls, Bool.or_eq_false_iff] at h
    refine bind_done (expr_done s branch.test h.1) fun v => ?_
    split
    · exact ⟨_, rfl⟩
    · exact ih (index + 1) h.2

/-- The tests of a conditional one after the other. A test counts if a later one has calls; the
blocks behind the tests do not count, since they are no part of this evaluation. -/
theorem chooseBranch_agree (index : Nat) {branches : List Branch}
    (h : AgreeOn (Branch.deciders branches) s s') :
    Anyhow (chooseBranch s index branches) (chooseBranch s' index branches) := by
  induction branches generalizing index with
  | nil => exact .done trivial
  | cons branch rest ih =>
    simp only [Branch.deciders, agreeOn_append] at h
    obtain ⟨⟨hown, htest⟩, hrest⟩ := h
    simp only [chooseBranch]
    refine deciding_agree hown (expr_agree branch.test htest) (fun v => ?_) fun hnone v => ?_
    · split
      · exact .done trivial
      · exact ih (index + 1) hrest
    · split
      · exact ⟨⟨_, rfl⟩, ⟨_, rfl⟩⟩
      · exact ⟨chooseBranch_done s _ hnone, chooseBranch_done s' _ hnone⟩

theorem option_agree {e : Option Expr} (h : AgreeOn (Expr.listDeciders e.toList) s s') :
    Anyhow (option s e) (option s' e) := by
  cases e with
  | none => exact .done trivial
  | some e =>
    obtain ⟨he, -⟩ := agreeOn_append.mp h
    exact (expr_agree e he).bind fun _ _ _ => .done trivial

end CallTree

end Stepwise
