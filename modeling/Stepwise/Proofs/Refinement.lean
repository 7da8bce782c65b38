import Stepwise.Program.Link
import Stepwise.Proofs.Simulation.Handler
import Stepwise.Proofs.Simulation.Simple

/-!
# The machine runs the structured meaning

The machine spreads every structured statement over phases of its frames, finds handlers by
unwinding and keeps function calls on a stack of activations. `run_eq_bigStep` says that nothing of
this shows: whenever the structured meaning of a program comes to an end, the run of the machine
shows the same records, ends the same way and leaves the same store behind.

The theorem is an induction on the fuel of the structured meaning (`runsBlocks`). What the machine
does for one statement is said in the modules of `Simulation`, where the meaning of the blocks
inside it is given.

Those modules are about an arbitrary meaning `run` of blocks that the machine realizes
(`RunsBlocks`). That is how a recursion over statements, loops and calls at once becomes an
induction on one number: with one more of fuel, a block is its statements, and each of them is
realized if the blocks in it are, with less. Jumps have no structured meaning: where one is
executed there is no result, so runs that jump are outside of the theorem.
-/

namespace Stepwise.BigStep

open Machine

variable {σ : Type} {env : Setting σ} {run : Around → Block → Meaning σ} {s : Site}
  {around : Around} {path : BlockPath} {b : Block} {i : Nat} {below : List Frame}

/-! ## Statements and blocks -/

/-- All simple statements have one meaning: an evaluation, and then what the effect asks for. -/
theorem stmt_simple (n : Nat) (next : Line) {st : Stmt} (hsimple : st.isStructured = false) :
    stmt env run n around next st =
      Evaluation.andThen (evaluate (call env run around.depth st.line) (simplePass env st) n [])
        (finish env around st.line next) := by
  cases st <;> first | rfl | cases hsimple

/-- A micro-step in front of a structured statement puts the frames of the statement on the
stack. -/
theorem structured_tick (hblock : env.program.block? s.unit path = some b) {st : Stmt}
    (hstmt : b.body[i]? = some st) (hstructured : st.isStructured = true) (p : Progress σ) :
    (p.machine (s.stack (Frame.block path i :: below))).tick env =
      (.running,
        p.machine
          (s.stack (Frame.enter st ⟨path, i⟩ ++ Frame.block path (i + 1) :: below))) := by
  show runBlock env _ s.unit path i [] below = _
  unfold runBlock
  rw [hblock]
  dsimp only
  rw [hstmt]
  dsimp only
  rw [if_pos hstructured]
  rfl

/-- **One statement**, by the kind of the statement. A structured one is entered first, and from
there on each kind has its own lemma. -/
theorem stmt_realized (hrun : RunsBlocks env run) (hfits : s.Fits env around)
    (hblock : env.program.block? s.unit path = some b) {st : Stmt} (hstmt : b.body[i]? = some st)
    (n : Nat) :
    Realizes env s (Frame.block path i :: below) (Frame.block path (i + 1) :: below)
      (stmt env run n around (b.lineAt (i + 1)) st) := by
  have hplace : env.program.stmt? s.unit ⟨path, i⟩ = some st := by
    rw [Program.stmt?_of_block? hblock, hstmt]
  cases hstructured : st.isStructured with
  | false =>
    rw [stmt_simple n _ hstructured]
    exact simple_realized hrun hfits hblock hstmt hstructured n
  | true =>
    refine .of_tick (structured_tick hblock hstmt hstructured) ?_
    cases st with
    | compound block => exact hrun.child hfits hplace .body rfl _
    | included source body line => exact hrun.child hfits hplace .body rfl _
    | condition branches otherwise line => exact condition_realized hrun hfits hplace n _
    | cycle test body line => exact cycle_realized hrun hfits hplace n _
    | doCycle body test line => exact doCycle_realized hrun hfits hplace n _
    | retry attempts body test line => exact retry_realized hrun hfits hplace n _
    | tryCatch body catchVar handler line => exact try_realized hrun hfits hplace n _
    | _ => cases hstructured

/-- The statements of a block from one on. The induction is on what is left of the body, and the
line behind a statement is where the block goes on. -/
theorem stmts_realized (hrun : RunsBlocks env run) (hfits : s.Fits env around)
    (hblock : env.program.block? s.unit path = some b) (n : Nat) {rest : List Stmt}
    (hrest : b.body.drop i = rest) :
    Realizes env s (Frame.block path i :: below) below
      (stmts env run n around b.endLine rest) := by
  induction rest generalizing i with
  | nil =>
    -- no statement is left, so the frame of the block is dropped
    have hend : b.body[i]? = none := by
      rw [← List.head?_drop, hrest]
      rfl
    refine .of_tick (fun p => ?_) .done
    show runBlock env _ s.unit path i [] below = _
    unfold runBlock
    rw [hblock]
    dsimp only
    rw [hend]
    rfl
  | cons st rest ih =>
    have hstmt : b.body[i]? = some st := by
      rw [← List.head?_drop, hrest]
      rfl
    have hrest' : b.body.drop (i + 1) = rest := by
      rw [← List.tail_drop, hrest]
      rfl
    -- both sides show the line of the next statement, or that of the end of the block
    have hnext : (rest.head?.map Stmt.line).getD b.endLine = b.lineAt (i + 1) := by
      rw [← hrest', List.head?_drop, Block.lineAt]
      cases b.body[i + 1]? <;> rfl
    unfold stmts
    rw [hnext]
    exact (stmt_realized hrun hfits hblock hstmt n).andThen rfl (ih hrest')

/-- **Blocks**, whatever the fuel of their meaning. Without fuel there is no meaning, so nothing is
to be shown. -/
theorem runsBlocks (env : Setting σ) (n : Nat) : RunsBlocks env (block env n) := by
  induction n with
  | zero =>
    intro around s hfits path b below hblock p o p' h
    cases h
  | succ n ih =>
    intro around s hfits path b below hblock
    exact stmts_realized ih hfits hblock n rfl

/-! ## Programs -/

/-- The site of the main program. -/
def Site.main : Site := ⟨.main, [], []⟩

/-- The main program has no caller, and its end is the closing line of the script. -/
theorem Site.main_fits (env : Setting σ) :
    Site.main.Fits env ⟨1, env.program.root.endLine⟩ where
  depth := rfl
  back m hm := by
    unfold nextLine?
    rw [hm]
    rfl
  main _ := rfl

theorem Failing.tick_main {f : Failure} {p : Progress σ} {m : Machine σ}
    (h : Failing f p (Site.main.stack []) m) : m.tick env = (.failed f, p.machine []) := by
  obtain ⟨scope, acts, rfl, hterminal, hsearch⟩ := h
  show unwind env ((p.withScope scope).raised acts f) f = _
  unfold unwind
  cases hf : f.fault.isTerminal with
  | true =>
    rw [hterminal hf]
    rfl
  | false =>
    have hnone : findCaught scope acts = .error p.store.scope := hsearch hf
    rw [show ((p.withScope scope).raised acts f).scope = scope from rfl,
      show ((p.withScope scope).raised acts f).activations = acts from rfl, hnone]
    rfl

/-- The run is over where the main block is. Running off the end takes one more
micro-step to be noticed; a return or an exit clears the stack at once. -/
theorem Arrives.runsTo {o : Outcome} {p : Progress σ} {m : Machine σ}
    (h : Arrives Site.main [] o p m) :
    ∃ m', RunsTo env m [] o.ending m' ∧ m'.finished = true ∧ m'.store = p.store ∧
      m'.exitStatus = o.exitStatus := by
  cases o with
  | normal =>
    obtain rfl := h
    exact ⟨_, .ended (.ended rfl rfl), rfl, rfl, rfl⟩
  | ret v =>
    obtain rfl := h
    exact ⟨_, .ended (.finished rfl), rfl, rfl, rfl⟩
  | exit status =>
    obtain rfl := h
    exact ⟨_, .ended (.finished rfl), rfl, rfl, rfl⟩
  | fault f =>
    have hgoing : m.finished = false := by
      obtain ⟨_, _, rfl, -⟩ := h
      rfl
    exact ⟨_, .failed (.failed hgoing (Failing.tick_main h)), rfl, rfl, rfl⟩

/-- **A run of the machine is the structured meaning of its program.** With all bounds that are
large enough, the run shows the same records, comes to the same end, and leaves the same store and
exit status. -/
theorem run_eq_bigStep (env : Setting σ) (scope : Scope) (world : σ) (n : Nat) (r : Run σ)
    (h : program env n scope world = some r) :
    ∃ bound, ∀ fuel limit, bound ≤ fuel → bound ≤ limit →
      ∃ m, (Machine.new scope world).run env fuel limit = (r.records, r.ending, m) ∧
        m.finished = true ∧ m.store = r.store ∧ m.exitStatus = r.exitStatus := by
  obtain ⟨⟨o, p⟩, hblock, rfl⟩ := Option.map_eq_some_iff.mp h
  obtain ⟨m, ⟨rs, hrs, hleads⟩, harrives⟩ :=
    runsBlocks env n _ _ (Site.main_fits env) [] env.program.root [] rfl _ _ _ hblock
  obtain ⟨m', hends, hm'⟩ := harrives.runsTo
  obtain ⟨bound, hrun⟩ := (RunsTo.of_leads hleads hends).run_eq
  refine ⟨bound, fun fuel limit hfuel hlimit => ⟨m', ?_, hm'⟩⟩
  have hrecords : p.records = rs := hrs
  dsimp only
  rw [hrecords, ← List.append_nil rs]
  exact hrun fuel limit hfuel hlimit

/-- A script with a function that fails, which is called in a test, inside a retry, inside a try
statement. -/
def refusal : Block :=
  .mk
    [.function "ask" ["x"] (.mk [.throw (.var "x" 2) 2] 1 3) 1,
      .tryCatch
        (.mk
          [.retry (.num 2.0 5)
              (.mk [.condition [.mk (.call "ask" [.string "no" 6] 6) (.mk [] 6 6)] none 6] 5 7)
              none 5]
          4 8)
        (some "e") (.mk [.ret (some (.var "e" 9)) 9] 8 10) 4]
    0 11

/-- The declaration shows a record, and then the return in the handler does. -/
theorem run_refusal :
    let env : Setting Unit := ⟨Program.link refusal, .default, .null ""⟩
    ∃ r, program env 9 .empty () = some r ∧
      r.records.map (fun x => (x.line, x.nextLine)) = [(1, 4), (9, 11)] ∧
      ∃ bound, ∀ fuel limit, bound ≤ fuel → bound ≤ limit →
        ∃ m, (Machine.new .empty ()).run env fuel limit = (r.records, r.ending, m) ∧
          m.finished = true ∧ m.store = r.store ∧ m.exitStatus = r.exitStatus := by
  intro env
  have h : (program env 9 .empty ()).map (fun r => r.records.map fun x => (x.line, x.nextLine)) =
      some [(1, 4), (9, 11)] := by decide +kernel
  obtain ⟨r, hr, hlines⟩ := Option.map_eq_some_iff.mp h
  exact ⟨r, hr, hlines, run_eq_bigStep env .empty () 9 r hr⟩

end Stepwise.BigStep
