import Stepwise.Proofs.Evaluating
import Stepwise.Proofs.JumpCheck
import Stepwise.Proofs.Placement

/-!
# How much is left to do

A stack of frames has a price: a number that falls with every micro-step that works on the stack. A
statement costs one micro-step, one for each call in its expressions and what its blocks cost; a
retry costs its body for as many rounds as a number of attempts can have. Only loops and jumps have
no price, so the program has to be straight.

**A stack that moves on gets cheaper** (`price_shift`), and so does one on which a handler starts
(`price_handler`).

## How prices are set

The price of a frame has two parts. `FrameKind.rest` is what there is to do behind the evaluation
that the frame stands at, and does not depend on how far that evaluation is. `Stance.due` is what is
left of the evaluation itself: one for finishing it, and one for each call whose result is not in
the replay list. A frame that waits for a function has paid for the call; one with a fault pending
is done with its evaluation and keeps only the rest, out of which a handler is paid.

Calls are counted in the text of an expression. An evaluation may come by fewer of them, when an
operator cuts it short, but by no more, and by each in the order of the text (`length_asks_le`). So
the number of results that a frame can have is known before.

The number of attempts of a retry is known only when the retry has been entered. Until then the
price is for the largest number there is, which is why the count being a word of 32 bits matters.

## Layout

Calls come first, through the call trees of `Proofs/CallTree`: a tree that makes at most `n` calls
on every path (`Within`). Then straight programs, and the prices with one lemma for every shift of a
stack. Prices are only added and compared, and each comparison ends in linear arithmetic.
`Proofs/Termination` puts the prices of all stacks of a machine into one list.
-/

namespace Stepwise

/-! ## Calls in expressions

A bound on the length of replay lists, read off the syntax. It is shown of call trees, where the
calls of an evaluation are laid out and no host or store is in the way. -/

mutual

/-- The calls in an expression. An evaluation reaches each of them once at most. -/
def Expr.calls : Expr → Nat
  | .binary left _ right _ => left.calls + right.calls
  | .unary _ operand _ => operand.calls
  | .field object _ _ _ => object.calls
  | .index object key _ => object.calls + key.calls
  | .list items _ => Expr.listCalls items
  | .call _ args _ => Expr.listCalls args + 1
  | _ => 0

/-- The calls in several expressions, which are evaluated one after the other. -/
def Expr.listCalls : List Expr → Nat
  | [] => 0
  | e :: rest => e.calls + Expr.listCalls rest

end

/-- The calls in what a frame evaluates: the expressions of its statement, and for a statement that
is a call this one as well. -/
def Evaluation.calls : Evaluation → Nat
  | nothing => 0
  | value e => e.calls
  | values es => Expr.listCalls es
  | error message code => message.calls + Expr.listCalls code.toList
  | call _ args => Expr.listCalls args + 1
  | assign targets _ sources => Expr.listCalls sources + Expr.listCalls targets
  | branches bs => Expr.listCalls (bs.map Branch.test)

namespace CallTree

variable {α β : Type} {s : Scope}

/-- No path through the tree has more calls. A path is given by the results that the calls come back
with. -/
def Within (n : Nat) (t : CallTree α) : Prop := ∀ vs, (t.asks vs).length ≤ n

theorem within_done (n : Nat) (r : Except Fault α) : (done r).Within n :=
  fun _ => Nat.zero_le n

theorem within_pure (n : Nat) (a : α) : (pure a : CallTree α).Within n :=
  within_done n _

theorem within_invoke (name : String) (args : List Value) : (invoke name args).Within 1 := by
  intro vs
  cases vs <;> simp [invoke, asks]

theorem Within.mono {n k : Nat} {t : CallTree α} (h : t.Within n) (hle : n ≤ k) : t.Within k :=
  fun vs => Nat.le_trans (h vs) hle

/-- One computation behind another makes as many calls as the two together. The induction is on the
first tree, with the number of its calls going down. -/
theorem Within.bind {n k : Nat} {t : CallTree α} {f : α → CallTree β} (ht : t.Within n)
    (hf : ∀ a, (f a).Within k) : (t >>= f).Within (n + k) := by
  induction t generalizing n with
  | done r =>
    cases r with
    | ok a => exact (hf a).mono (Nat.le_add_left k n)
    | error x => exact within_done _ _
  | call name args next ih =>
    intro vs
    cases vs with
    | nil =>
      have hfirst : 1 ≤ n := ht []
      exact Nat.le_trans hfirst (Nat.le_add_right n k)
    | cons v vs =>
      -- the call in front is one of the `n`, and the rest of the tree has one less
      have hfirst : 1 ≤ n := ht []
      have hnext : (next v).Within (n - 1) := fun vs => Nat.le_sub_one_of_lt (ht (v :: vs))
      have hrest : ((next v >>= f).asks vs).length ≤ n - 1 + k := ih v hnext vs
      show ((next v >>= f).asks vs).length + 1 ≤ n + k
      omega

theorem Within.bind_done {n : Nat} {t : CallTree α} {f : α → CallTree β} (ht : t.Within n)
    (hf : ∀ a, (f a).Within 0) : (t >>= f).Within n :=
  ht.bind hf

mutual

/-- An expression makes no more calls than it has. An operator that is cut short makes fewer. -/
theorem within_expr (s : Scope) : ∀ e : Expr, (expr s e).Within e.calls
  | .num _ _ | .bool _ _ | .null _ | .noop _ | .string _ _ => within_pure _ _
  | .var _ _ => within_done _ _
  | .binary left op right _ => by
    have hleft := within_expr s left
    have hright := within_expr s right
    rw [expr.eq_def, Expr.calls]
    refine hleft.bind fun l => ?_
    split
    · by_cases hl : l.isTruthy = true
      · simp only [hl, if_true]
        exact hright.bind_done fun r => within_pure _ _
      · simp only [hl]
        exact within_pure _ _
    · by_cases hl : l.isTruthy = true
      · simp only [hl, if_true]
        exact within_pure _ _
      · simp only [hl]
        exact hright.bind_done fun r => within_pure _ _
    · exact hright.bind_done fun r => within_done _ _
  | .unary _ operand _ => (within_expr s operand).bind_done fun _ => within_done _ _
  | .field object _ _ _ => (within_expr s object).bind_done fun _ => within_done _ _
  | .index object key _ =>
    (within_expr s object).bind fun _ => (within_expr s key).bind_done fun _ => within_done _ _
  | .list items _ => (within_exprs s items).bind_done fun _ => within_pure _ _
  | .call _ args _ => (within_exprs s args).bind fun _ => within_invoke _ _

theorem within_exprs (s : Scope) : ∀ es : List Expr, (exprs s es).Within (Expr.listCalls es)
  | [] => within_pure _ _
  | e :: rest =>
    (within_expr s e).bind fun _ => (within_exprs s rest).bind_done fun _ => within_pure _ _

end

theorem within_callOf (name : String) (args : List Expr) :
    (callOf s name args).Within (Expr.listCalls args + 1) :=
  (within_exprs s args).bind fun _ => within_invoke _ _

theorem within_option (e : Option Expr) : (option s e).Within (Expr.listCalls e.toList) := by
  cases e with
  | none => exact within_pure _ _
  | some e => exact (within_expr s e).bind_done fun _ => within_pure _ _

theorem within_target : ∀ e : Expr, (target s e).Within e.calls
  | .var _ _ => within_pure _ _
  | .field object _ _ _ => (within_target object).bind_done fun _ => within_pure _ _
  | .index object key _ => by
    refine (within_target object).bind fun t => (within_expr s key).bind_done fun i => ?_
    exact (within_done 0 _).bind_done fun _ => within_pure _ _
  | .num _ _ | .bool _ _ | .null _ | .noop _ | .string _ _ | .binary _ _ _ _ | .unary _ _ _
  | .list _ _ | .call _ _ _ => within_done _ _

/-- The sources of an assignment. One that is taken apart is a single call, whose outputs are its
sources. -/
theorem within_sources (targets values : List Expr) (strict : Bool) :
    (sources s targets values strict).Within (Expr.listCalls values) := by
  unfold sources
  split
  · exact (within_exprs s values).bind_done fun _ => within_pure _ _
  split
  · exact within_done _ _
  · rename_i name args signature hparts
    -- a service that is taken apart is the only source
    have hcalls : Expr.listCalls values = Expr.listCalls args + 1 := by
      unfold decomposition? at hparts
      split at hparts
      · split at hparts
        · cases hparts
        · obtain ⟨_, -, hsame⟩ := Option.map_eq_some_iff.mp hparts
          cases hsame
          simp [Expr.listCalls, Expr.calls]
      · cases hparts
    rw [hcalls]
    refine (within_callOf name args).bind_done fun response => ?_
    dsimp only
    split
    · exact within_done _ _
    · exact within_pure _ _

/-- The targets of an assignment. Each may have an index that calls something; a value that is
missing ends the walk early. -/
theorem within_bindings (op : AssignOp) (targets : List Expr) (vs : List Value) :
    (bindings s op (targets.zip vs)).Within (Expr.listCalls targets) := by
  induction targets generalizing vs with
  | nil => exact within_pure _ _
  | cons e rest ih =>
    cases vs with
    | nil => exact within_pure _ _
    | cons v vs =>
      refine (within_target e).bind fun t => ?_
      have hrest (v : Value) :
          (bindings s op (rest.zip vs) >>= fun more => pure ((t, v) :: more)).Within
          (Expr.listCalls rest) := (ih vs).bind_done fun _ => within_pure _ _
      dsimp only
      split
      · exact hrest v
      · exact ((within_done 0 _).bind hrest).mono (Nat.le_of_eq (Nat.zero_add _))

theorem within_plan (targets : List Expr) (op : AssignOp) (values : List Expr) (strict : Bool) :
    (plan s targets op values strict).Within (Expr.listCalls values + Expr.listCalls targets) :=
  (within_sources targets values strict).bind fun r =>
    (within_bindings op targets r.1).bind_done fun _ => within_pure _ _

theorem within_chooseBranch (index : Nat) (branches : List Branch) :
    (chooseBranch s index branches).Within (Expr.listCalls (branches.map Branch.test)) := by
  induction branches generalizing index with
  | nil => exact within_pure _ _
  | cons branch rest ih =>
    refine (within_expr s branch.test).bind fun v => ?_
    split
    · exact within_pure _ _
    · exact ih (index + 1)

end CallTree

/-- **An evaluation reaches no more calls than it has**, whatever results the calls come back
with. -/
theorem Evaluation.length_asks_le (e : Evaluation) (strict : Bool) (s : Scope) (vs : List Value) :
    (e.asks strict s vs).length ≤ e.calls := by
  cases e with
  | nothing => exact Nat.le_refl 0
  | value e => exact CallTree.within_expr s e vs
  | values es => exact CallTree.within_exprs s es vs
  | error message code =>
    refine CallTree.Within.bind (CallTree.within_expr s message) (fun m => ?_) vs
    exact (CallTree.within_option code).bind_done fun _ => CallTree.within_pure _ _
  | call name args => exact CallTree.within_callOf name args vs
  | assign targets op sources => exact CallTree.within_plan targets op sources strict vs
  | branches bs => exact CallTree.within_chooseBranch 0 bs vs

/-- An evaluation that stops for a function has a call left for it: the results that it has so far
are those of other calls. -/
theorem Stops.lt_calls {strict : Bool} {e : Evaluation} {s : Scope} {replay replay' : List Value}
    {name : String} (h : Stops strict e s replay replay' name) : replay'.length < e.calls := by
  obtain ⟨before, hasks, hlength⟩ := h.asks
  have hle := e.length_asks_le strict s replay'
  rw [hasks, List.length_append, hlength] at hle
  exact hle

/-! ## Straight programs

Checked on the list of all statements of a unit, nested ones included, so that it can be evaluated.
-/

/-- Whether a statement can bring a unit back to where it was: a loop or a jump. -/
def Stmt.mayRepeat : Stmt → Bool
  | .cycle .. | .doCycle .. | .goto .. => true
  | _ => false

/-- Whether a unit has neither loops nor jumps. Retries and subroutines are allowed. -/
def Block.isStraight (b : Block) : Bool :=
  (b.statements []).all fun entry => !entry.2.mayRepeat

/-- Whether neither the main program nor a function has a loop or a jump. Functions may call
themselves. -/
def Program.isStraight (p : Program) : Bool :=
  p.root.isStraight && p.functions.all fun entry => entry.2.body.isStraight

/-- In a straight unit no statement repeats, at whatever place it stands. -/
theorem Block.mayRepeat_of_isStraight {b : Block} (h : b.isStraight = true) {place : StmtPath}
    {stmt : Stmt} (hstmt : b.stmtAt? place = some stmt) : stmt.mayRepeat = false := by
  obtain ⟨c, hc, hindex⟩ := Block.stmtAt?_eq_some.mp hstmt
  have hmem := Block.mem_statements_of_follow? [] hc hindex
  simpa using List.all_eq_true.mp h _ hmem

theorem Program.mayRepeat_of_isStraight {p : Program} (h : p.isStraight = true) {u : CodeUnit}
    {place : StmtPath} {stmt : Stmt} (hstmt : p.stmt? u place = some stmt) :
    stmt.mayRepeat = false := by
  obtain ⟨hmain, hfunctions⟩ := Bool.and_eq_true_iff.mp h
  rw [Program.stmt?] at hstmt
  cases u with
  | main => exact Block.mayRepeat_of_isStraight hmain hstmt
  | function name =>
    simp only [Program.unitRoot?] at hstmt
    rcases hd : p.function? name with _ | d
    · simp [hd] at hstmt
    · rw [hd] at hstmt
      exact Block.mayRepeat_of_isStraight (List.all_eq_true.mp hfunctions _ (Assoc.mem_of_get? hd))
        hstmt

/-! ## Prices

First for the syntax, then for frames. The price of a statement is for the frames that it starts
with, and the price of a frame is for what has not been done of its statement. -/

/-- One round of a retry: its body, and the test behind it. -/
def retryRound (body : Nat) (test : Option Expr) : Nat := body + Expr.listCalls test.toList + 2

mutual

/-- The price of the frame of a block that starts. -/
def Block.work : Block → Nat
  | .mk body _ _ => Stmt.listWork body + 1

/-- The price of these statements in a block: each is evaluated, passed, and does what it starts
with. -/
def Stmt.listWork : List Stmt → Nat
  | [] => 0
  | stmt :: rest => stmt.inner + stmt.evaluation.calls + 1 + Stmt.listWork rest

/-- The price of the frames that a statement starts with. The number of attempts is not known
before, but it is below two to the power of 32. -/
def Stmt.inner : Stmt → Nat
  | .compound block => block.work
  | .included _ body _ => body.work
  | .condition branches otherwise _ =>
    Branch.listWork branches + Block.optionWork otherwise + Expr.listCalls
      (branches.map Branch.test) + 2
  | .retry attempts body test _ => 4294967296 * retryRound body.work test + attempts.calls + 1
  | .tryCatch body _ handler _ => body.work + handler.work + 3
  | _ => 0

/-- All branches are paid for, although one at most is run. -/
def Branch.listWork : List Branch → Nat
  | [] => 0
  | .mk _ block :: rest => block.work + Branch.listWork rest

def Block.optionWork : Option Block → Nat
  | none => 0
  | some b => b.work

end

/-- What there is to do behind the evaluation of the first of these statements. -/
def Stmt.listRest : List Stmt → Nat
  | [] => 0
  | stmt :: rest => stmt.inner + 1 + Stmt.listWork rest

namespace FrameKind

/-- What there is to do behind the evaluation that a frame stands at. For a retry in its body these
are the rounds that may still come, and the test behind this one. -/
def rest (p : Program) (u : CodeUnit) : FrameKind → Nat
  | .block path next =>
    match p.block? u path with
    | some b => Stmt.listRest (b.body.drop next)
    | none => 0
  | .condition place .test =>
    match p.stmt? u place with
    | some (.condition branches otherwise _) =>
      Branch.listWork branches + Block.optionWork otherwise + 1
    | _ => 0
  | .retry place phase attempt max =>
    match p.stmt? u place, phase with
    | some (.retry _ body test _), .enter => 4294967296 * retryRound body.work test
    | some (.retry _ body test _), .body =>
      (max.toNat - attempt.toNat) * retryRound body.work test + Expr.listCalls test.toList + 1
    | some (.retry _ body test _), .test => (max.toNat - attempt.toNat) * retryRound body.work test
    | _, _ => 0
  | .tryCatch place .body =>
    match p.stmt? u place with
    | some (.tryCatch _ _ handler _) => handler.work + 2
    | _ => 0
  | _ => 0

end FrameKind

/-- How the innermost frame of a stack stands. All other frames of a stack run, as far as prices go:
they go on when they are in front again. -/
inductive Stance where
  | runs
  /-- It stopped for a function, which runs now. -/
  | waits
  | fails

/-- What the evaluation of a frame still costs: one, and one for each call that has no result. A
call that is being made is paid for. -/
def Stance.due (calls results : Nat) : Stance → Nat
  | .runs => calls - results + 1
  | .waits => calls - (results + 1) + 1
  | .fails => 0

namespace Frame

variable (p : Program) (u : CodeUnit)

/-- The price of a frame that stands like this. -/
def price (stance : Stance) (f : Frame) : Nat :=
  f.kind.rest p u + stance.due (f.kind.evaluation p u).calls f.replay.length

/-- The price of frames that do not run now. -/
def total : List Frame → Nat
  | [] => 0
  | f :: below => f.price p u .runs + total below

/-- The price of a stack of which the innermost frame stands like this. -/
def stackPrice (stance : Stance) : List Frame → Nat
  | [] => 0
  | f :: below => f.price p u stance + total p u below

variable {p u}

@[simp] theorem total_nil : total p u [] = 0 := rfl

@[simp] theorem total_cons (f : Frame) (below : List Frame) :
    total p u (f :: below) = f.price p u .runs + total p u below := rfl

@[simp] theorem total_append (above below : List Frame) :
    total p u (above ++ below) = total p u above + total p u below := by
  induction above with
  | nil => simp
  | cons f above ih => simp [ih, Nat.add_assoc]

theorem stackPrice_runs (frames : List Frame) : stackPrice p u .runs frames = total p u frames := by
  cases frames <;> rfl

/-- However a frame stands, the rest is still to do. -/
theorem rest_le_price (stance : Stance) (f : Frame) : f.kind.rest p u ≤ f.price p u stance :=
  Nat.le_add_right _ _

theorem rest_lt_price (kind : FrameKind) (replay : List Value) :
    kind.rest p u < price p u .runs ⟨kind, replay⟩ :=
  Nat.lt_add_of_pos_right (Nat.succ_pos _)

theorem stackPrice_le_total (stance : Stance) (frames : List Frame) :
    stackPrice p u stance frames ≤ total p u frames := by
  cases frames with
  | nil => exact Nat.le_refl 0
  | cons f below =>
    refine Nat.add_le_add_right (Nat.add_le_add_left ?_ _) _
    cases stance <;> simp only [Stance.due] <;> omega

/-! ### Blocks

The frame of a block pays for its statements one by one. -/

section

variable {path : BlockPath} {b : Block} {next : Nat}

theorem drop_of_getElem? {body : List Stmt} {stmt : Stmt} (h : body[next]? = some stmt) :
    body.drop next = stmt :: body.drop (next + 1) := by
  rw [List.drop_eq_getElem?_toList_append, h]
  rfl

theorem rest_block (hb : p.block? u path = some b) :
    (FrameKind.block path next).rest p u = Stmt.listRest (b.body.drop next) := by
  simp [FrameKind.rest, hb]

theorem price_block_le (hb : p.block? u path = some b) (replay : List Value) :
    price p u .runs ⟨.block path next, replay⟩ ≤ Stmt.listWork (b.body.drop next) + 1 := by
  have hat := Program.stmt?_of_block? hb next
  simp only [price, rest_block hb, FrameKind.evaluation, Stance.due]
  rcases hstmt : b.body[next]? with _ | stmt
  · rw [hstmt] at hat
    have hnone : b.body.drop next = [] :=
      List.drop_eq_nil_of_le (List.getElem?_eq_none_iff.mp hstmt)
    simp [hat, hnone, Stmt.listRest, Stmt.listWork, Evaluation.calls]
  · rw [hstmt] at hat
    simp only [hat, drop_of_getElem? hstmt, Stmt.listRest, Stmt.listWork]
    omega

theorem price_block_zero_le (hb : p.block? u path = some b) :
    price p u .runs (Frame.block path 0) ≤ b.work := by
  obtain ⟨body, line, endLine⟩ := b
  exact price_block_le hb []

/-- A statement is paid for before the frame points behind it, with the frames it starts with. This
is what makes entering a statement cheaper than standing in front of it. -/
theorem lt_price_block {stmt : Stmt} (hb : p.block? u path = some b)
    (hstmt : b.body[next]? = some stmt) (replay : List Value) :
    stmt.inner + Stmt.listWork (b.body.drop (next + 1)) + 1 <
      price p u .runs ⟨.block path next, replay⟩ := by
  refine Nat.lt_of_le_of_lt ?_ (rest_lt_price _ _)
  rw [rest_block hb, drop_of_getElem? hstmt, Stmt.listRest]
  omega

end

/-! ### Structured statements

Each statement with blocks has a price for its header that covers the frames that the header starts.
The cases are those by which frames start and turn. -/

theorem listWork_of_getElem? {branches : List Branch} {i : Nat} {branch : Branch}
    (h : branches[i]? = some branch) : branch.block.work ≤ Branch.listWork branches := by
  induction branches generalizing i with
  | nil => cases h
  | cons first rest ih =>
    obtain ⟨test, block⟩ := first
    rw [Branch.listWork]
    cases i with
    | zero =>
      cases h
      exact Nat.le_add_right _ _
    | succ i =>
      exact Nat.le_trans (ih h) (Nat.le_add_left _ _)

/-- Whichever block of a condition is chosen has been paid for. The price has all of them, since it
is not known in advance which one it will be. -/
theorem work_of_condition {branches : List Branch} {otherwise : Option Block} {line : Line}
    {sel : BlockSel} {b : Block}
    (hb : (Stmt.condition branches otherwise line).block? sel = some b) :
    b.work ≤ Branch.listWork branches + Block.optionWork otherwise := by
  cases sel with
  | branch i =>
    obtain ⟨branch, hbranch, rfl⟩ := Option.map_eq_some_iff.mp hb
    exact Nat.le_trans (listWork_of_getElem? hbranch) (Nat.le_add_right _ _)
  | otherwise =>
    obtain rfl : otherwise = some b := hb
    exact Nat.le_add_left _ _
  | body => cases hb
  | handler => cases hb

/-- There is one round less to pay behind each attempt. The count does not wrap around, since it is
below a number of the same size. -/
theorem rounds_succ {attempt max : UInt32} (left : attempt < max) (round : Nat) :
    (max.toNat - attempt.toNat) * round = (max.toNat - (attempt + 1).toNat) * round + round := by
  have hlt : attempt.toNat < max.toNat := UInt32.lt_iff_toNat_lt.mp left
  have hmax : max.toNat < 4294967296 := max.toNat_lt
  have hnext : (attempt + 1).toNat = attempt.toNat + 1 := by
    rw [UInt32.toNat_add]
    exact Nat.mod_eq_of_lt (Nat.lt_of_le_of_lt hlt hmax)
  rw [hnext, ← Nat.succ_mul]
  congr 1
  omega

section

variable {place : StmtPath} {stmt : Stmt}

theorem rest_retry {attempts : Expr} {body : Block} {test : Option Expr} {line : Line}
    (hstmt : p.stmt? u place = some (.retry attempts body test line)) (attempt max : UInt32) :
    (FrameKind.retry place .enter attempt max).rest p u = 4294967296 * retryRound body.work test ∧
    (FrameKind.retry place .body attempt max).rest p u =
      (FrameKind.retry place .test attempt max).rest p u + Expr.listCalls test.toList + 1 ∧
    (FrameKind.retry place .test attempt max).rest p u =
      (max.toNat - attempt.toNat) * retryRound body.work test := by
  simp [FrameKind.rest, hstmt]

/-- A frame that evaluates nothing costs its rest, and one for going on. -/
theorem price_of_nothing {kind : FrameKind} (h : kind.evaluation p u = .nothing)
    (replay : List Value) :
    price p u .runs ⟨kind, replay⟩ = kind.rest p u + 1 := by
  simp [price, h, Evaluation.calls, Stance.due]

/-- A statement has paid for the frames that it starts with, if it is none that may repeat. -/
theorem price_enter (hstmt : p.stmt? u place = some stmt) (straight : stmt.mayRepeat = false) :
    total p u (Frame.enter stmt place) ≤ stmt.inner := by
  cases stmt with
  | compound block =>
    simpa [Frame.enter, Stmt.inner] using price_block_zero_le (Program.block?_child hstmt rfl)
  | included source body line =>
    simpa [Frame.enter, Stmt.inner] using price_block_zero_le (Program.block?_child hstmt rfl)
  | condition branches otherwise line =>
    simp only [Frame.enter, Frame.new, total_cons, total_nil, price, FrameKind.rest,
      FrameKind.evaluation, hstmt, Evaluation.calls, Stance.due, Stmt.inner, List.length_nil]
    omega
  | retry attempts body test line =>
    simp only [Frame.enter, Frame.new, total_cons, total_nil, price, FrameKind.rest,
      FrameKind.evaluation, hstmt, Evaluation.calls, Stance.due, Stmt.inner, List.length_nil]
    omega
  | tryCatch body catchVar handler line =>
    have hbody : p.block? u (place.child .body) = some body := Program.block?_child hstmt rfl
    have hprice := price_block_zero_le hbody
    have hframe : price p u .runs (Frame.new (.tryCatch place .body)) = handler.work + 3 := by
      rw [Frame.new, price_of_nothing rfl]
      simp [FrameKind.rest, hstmt]
    simp only [Frame.enter, total_cons, total_nil, hframe, Stmt.inner]
    omega
  | cycle => cases straight
  | doCycle => cases straight
  | _ => exact Nat.zero_le _

/-- A header has paid for the block that it starts, and for what comes behind the block. This is
where loops have no place: theirs would have to pay for themselves. -/
theorem rest_starts {kind kind' : FrameKind} {sel : BlockSel} {b : Block}
    (hstmt : p.stmt? u place = some stmt) (straight : stmt.mayRepeat = false)
    (runs : kind.Runs stmt) (hb : stmt.block? sel = some b) (starts : kind.Starts place sel kind') :
    b.work + (kind'.rest p u + 1) ≤ kind.rest p u := by
  cases starts with
  | condition sel =>
    cases runs
    have hwork := work_of_condition hb
    simp only [FrameKind.rest, hstmt]
    omega
  | first attempt max n =>
    cases runs with
    | retry _ _ _ _ attempts body test line =>
      cases hb
      obtain ⟨hfirst, -, -⟩ := rest_retry hstmt attempt max
      -- the first round is paid out of the largest number of rounds, which `n` does not exceed
      obtain ⟨-, hbody, htest⟩ := rest_retry hstmt 1 n
      have hrounds : (n.toNat - 1 + 1) * retryRound b.work test ≤
          4294967296 * retryRound b.work test := by
        have hn : n.toNat < 4294967296 := n.toNat_lt
        exact Nat.mul_le_mul_right _ (by omega)
      rw [Nat.succ_mul] at hrounds
      rw [hfirst, hbody, htest]
      refine Nat.le_trans ?_ hrounds
      simp only [retryRound, UInt32.toNat_one]
      omega
  | @again attempt max left =>
    cases runs with
    | retry _ _ _ _ attempts body test line =>
      cases hb
      obtain ⟨-, -, hnow⟩ := rest_retry hstmt attempt max
      obtain ⟨-, hbody, htest⟩ := rest_retry hstmt (attempt + 1) max
      rw [hnow, rounds_succ left, hbody, htest]
      simp only [retryRound]
      omega
  | cycle =>
    cases runs
    cases straight
  | doCycle =>
    cases runs
    cases straight

/-- So the two frames that a header starts are cheaper than the header. -/
theorem price_starts {kind kind' : FrameKind} {sel : BlockSel} {b : Block}
    (hstmt : p.stmt? u place = some stmt) (straight : stmt.mayRepeat = false)
    (runs : kind.Runs stmt) (hb : stmt.block? sel = some b) (starts : kind.Starts place sel kind')
    (replay : List Value) :
    total p u [Frame.block (place.child sel) 0, Frame.new kind'] <
      price p u .runs ⟨kind, replay⟩ := by
  have hblock := price_block_zero_le (Program.block?_child hstmt hb)
  have hframe : price p u .runs (Frame.new kind') = kind'.rest p u + 1 := by
    cases starts with
    | cycle | doCycle | condition | first | again => exact price_of_nothing rfl []
  have hpaid := rest_starts hstmt straight runs hb starts
  have hlt : kind.rest p u < price p u .runs ⟨kind, replay⟩ := rest_lt_price kind replay
  simp only [total_cons, total_nil, hframe]
  omega

theorem price_turns {kind kind' : FrameKind} (hstmt : p.stmt? u place = some stmt)
    (straight : stmt.mayRepeat = false) (runs : kind.Runs stmt) (hplace : kind.place? = some place)
    (turns : kind.Turns kind') (replay : List Value) :
    price p u .runs ⟨kind', replay⟩ < price p u .runs ⟨kind, replay⟩ := by
  cases turns with
  | cycle =>
    cases runs
    cases straight
  | doCycle =>
    cases runs
    cases straight
  | retry _ attempt max =>
    cases runs with
    | retry _ _ _ _ attempts body test line =>
      cases hplace
      obtain ⟨-, hbody, -⟩ := rest_retry hstmt attempt max
      have hcalls : ((FrameKind.retry place .test attempt max).evaluation p u).calls =
          Expr.listCalls test.toList := by
        cases test <;> simp [FrameKind.evaluation, hstmt, Evaluation.calls, Expr.listCalls]
      have hnow : price p u .runs ⟨.retry place .body attempt max, replay⟩ = _ :=
        price_of_nothing rfl replay
      rw [hnow, hbody]
      simp only [price, hcalls, Stance.due]
      omega

/-- **A handler that starts has been paid for** by the frame that waited for it. For a try statement
this is the handler, for a retry the next round. The evaluation of the frame is no part of it, since
a fault ends the evaluation. -/
theorem price_handler {root : Block} {f : Frame} {below : List Frame} {h : Handler}
    (hroot : p.unitRoot? u = some root) (placed : Placed root (f :: below))
    (hh : f.handler? = some h) :
    total p u h.frames < f.kind.rest p u := by
  obtain ⟨place, hplace⟩ := place?_of_handler? hh
  obtain ⟨kind, replay⟩ := f
  obtain ⟨stmt, hstmt, runs⟩ := placed.runs hroot hplace
  cases runs with
  | tryCatch _ phase body catchVar handler line =>
    cases hplace
    cases phase with
    | handler => cases hh
    | body =>
      cases hh
      have hb : p.block? u (place.child .handler) = some handler := Program.block?_child hstmt rfl
      have hblock := price_block_zero_le hb
      have hframe : price p u .runs (Frame.new (.tryCatch place .handler)) = 1 :=
        price_of_nothing rfl []
      simp only [Handler.frames, total_cons, total_nil, hframe, FrameKind.rest, hstmt]
      omega
  | retry _ phase attempt max attempts body test line =>
    cases hplace
    cases phase with
    | enter => cases hh
    | test => cases hh
    | body =>
      simp only [handler?] at hh
      split at hh
      · cases hh
        have hb : p.block? u (place.child .body) = some body := Program.block?_child hstmt rfl
        have hblock := price_block_zero_le hb
        have hframe : price p u .runs ⟨.retry place .body (attempt + 1) max, []⟩ = _ :=
          price_of_nothing rfl []
        obtain ⟨-, hbody, htest⟩ := rest_retry hstmt attempt max
        obtain ⟨-, hbody', htest'⟩ := rest_retry hstmt (attempt + 1) max
        have hrounds := rounds_succ ‹_› (retryRound body.work test)
        simp only [Handler.frames, total_cons, total_nil, Frame.new, hframe]
        rw [hbody, htest, hbody', htest', hrounds]
        -- the round that starts is the one that is paid for no more
        simp only [retryRound]
        omega
      · cases hh
  | condition => cases hh
  | cycle => cases hh
  | doCycle => cases hh

/-- A statement that the frame of a block has behind it is paid for, with the frames it starts
with. -/
theorem price_pass {path : BlockPath} {next : Nat} (hstmt : p.stmt? u ⟨path, next⟩ = some stmt)
    (replay replay' : List Value) :
    stmt.inner + price p u .runs ⟨.block path (next + 1), replay'⟩ <
      price p u .runs ⟨.block path next, replay⟩ := by
  obtain ⟨b, hb, hindex⟩ := Program.block?_of_stmt? hstmt
  have hnow := lt_price_block hb hindex replay
  have hnext : price p u .runs ⟨.block path (next + 1), replay'⟩ ≤ _ :=
    price_block_le hb replay'
  omega

/-- **A stack that moves on gets cheaper**, in a program without loops. A frame that only holds does
not move on, and is excluded by the kinds of the frames being other ones. -/
theorem price_shift {root : Block} {frames frames' : List Frame} (straight : p.isStraight = true)
    (hroot : p.unitRoot? u = some root) (placed : Placed root frames)
    (shifts : Shift p u frames frames') (other : frames'.map Frame.kind ≠ frames.map Frame.kind) :
    total p u frames' < total p u frames := by
  cases shifts with
  | hold => exact absurd rfl other
  | pass hstmt simple replay replay' below =>
    have hpass := price_pass hstmt replay replay'
    simp only [total_cons]
    omega
  -- passing the statement pays for the frames that it starts with
  | enter hstmt structured replay below =>
    have hpass := price_pass hstmt replay replay
    have henter := price_enter hstmt (Program.mayRepeat_of_isStraight straight hstmt)
    simp only [total_append, total_cons]
    omega
  | start hstmt hb starts replay below =>
    rename_i place stmt sel b kind kind'
    have hplace : kind.place? = some place := by cases starts <;> rfl
    obtain ⟨_, hat, runs⟩ := placed.runs hroot hplace
    obtain rfl : _ = stmt := Option.some.inj (hat.symm.trans hstmt)
    have hstart :=
      price_starts hstmt (Program.mayRepeat_of_isStraight straight hstmt) runs hb starts replay
    simp only [total_cons, total_nil] at hstart ⊢
    omega
  | turn turns replay below =>
    rename_i kind kind'
    obtain ⟨place, hplace⟩ : ∃ place, kind.place? = some place := by
      cases turns <;> exact ⟨_, rfl⟩
    obtain ⟨stmt, hstmt, runs⟩ := placed.runs hroot hplace
    have hturn :=
      price_turns hstmt (Program.mayRepeat_of_isStraight straight hstmt) runs hplace turns replay
    simp only [total_cons]
    omega
  | leave f below =>
    obtain ⟨kind, replay⟩ := f
    have hpaid : kind.rest p u < price p u .runs ⟨kind, replay⟩ := rest_lt_price kind replay
    simp only [total_cons]
    omega

end

end Frame

end Stepwise
