import Stepwise.Proofs.Simulation.Statement

/-!
# Statements that take faults

A try statement and a retry have frames that stop the search for a handler. Their bodies leave the
machine, on a fault, with the search still to be made, and the search comes to their own frame: the
next micro-step starts the handler, or the body over. A fault that they do not take goes on
outwards.

What a body leaves is `Failing` with the frame of the statement among the outer frames. If the frame
takes the fault, `Failing.tick_caught` makes the micro-step; if not, `arrives_cons` takes the frame
away. A retry takes faults as long as attempts are left, and a try statement while its body runs;
neither takes a terminal fault.
-/

namespace Stepwise.BigStep

open Machine

variable {σ : Type} {env : Setting σ} {run : Around → Block → Meaning σ} {s : Site}
  {around : Around} {place : StmtPath} {below : List Frame} {line : Line} {body : Block}

/-! ## Retries -/

section Retry

variable {attempts : Expr} {test : Option Expr}

/-- A pass over the number of attempts is one micro-step, and the body starts behind the last
one. -/
theorem retry_tick_enter
    (hstmt : env.program.stmt? s.unit place = some (.retry attempts body test line))
    (below : List Frame) {p : Progress σ} {replay : List Value} {testLine : Line}
    {r : Except Interrupt UInt32} {replay' : List Value} {store : Store σ}
    (hpass : attemptsPass env attempts line replay p.store = some (testLine, r, replay', store)) :
    (p.machine (s.stack (⟨.retry place .enter 0 0, replay⟩ :: below))).tick env =
      match r with
      | .ok max =>
        (.running, (p.withStore store).machine (s.stack
          (Frame.block (place.child .body) 0 :: Frame.new (.retry place .body 1 max) :: below)))
      | .error i =>
        (.running, ((p.withStore store).machine
          (s.stack (⟨.retry place .enter 0 0, replay'⟩ :: below))).interrupt env
            testLine i) := by
  simp only [attemptsPass, Option.some.injEq, Prod.mk.injEq] at hpass
  obtain ⟨rfl, heval⟩ := hpass
  show runRetry env _ s.unit place .enter 0 0 replay below = _
  unfold runRetry
  rw [hstmt]
  dsimp only
  rw [show (p.machine (s.stack (⟨.retry place .enter 0 0, replay⟩ :: below))).store =
    p.store from rfl, heval, settle_machine]
  cases r <;> rfl

theorem retry_frame_enter
    (hstmt : env.program.stmt? s.unit place = some (.retry attempts body test line)) :
    PassFrame env s (.retry place .enter 0 0) below line (attemptsPass env attempts line) where
  stops p replay testLine i replay' store hpass := retry_tick_enter hstmt below hpass
  line m replay hm := by
    simp only [nextLine?, hm, Site.stack, hstmt, Option.map_some, Stmt.line]
  handler _ := rfl

/-- A pass over the test, behind which the body starts again only if there are attempts left. A test
that holds for the last attempt leaves the retry without a fault. -/
theorem retry_tick_test {tested : Expr} {time max : UInt32}
    (hstmt : env.program.stmt? s.unit place = some (.retry attempts body (some tested) line))
    (below : List Frame) {p : Progress σ} {replay : List Value} {testLine : Line}
    {r : Except Interrupt Bool} {replay' : List Value} {store : Store σ}
    (hpass : testPass env tested line replay p.store = some (testLine, r, replay', store)) :
    (p.machine (s.stack (⟨.retry place .test time max, replay⟩ :: below))).tick env =
      match r with
      | .ok again =>
        (.running, (p.withStore store).machine (s.stack
          (if again && time < max then
            Frame.block (place.child .body) 0 ::
              Frame.new (.retry place .body (time + 1) max) :: below
          else below)))
      | .error i =>
        (.running, ((p.withStore store).machine
          (s.stack (⟨.retry place .test time max, replay'⟩ :: below))).interrupt env
            testLine i) := by
  simp only [testPass, Option.some.injEq, Prod.mk.injEq] at hpass
  obtain ⟨rfl, heval⟩ := hpass
  -- the pass evaluates in the store of the machine, so the evaluation is the one of the micro-step
  have heval :
      evalTest env (p.machine (s.stack (⟨.retry place .test time max, replay⟩ :: below))) replay
        tested = (r, replay', store) := heval
  show runRetry env _ s.unit place .test time max replay below = _
  unfold runRetry
  rw [hstmt]
  dsimp only
  rw [heval, settle_machine]
  cases r with
  | error i => rfl
  | ok again =>
    dsimp only
    split <;> rfl

theorem retry_frame_test {tested : Expr} {time max : UInt32}
    (hstmt : env.program.stmt? s.unit place = some (.retry attempts body (some tested) line)) :
    PassFrame env s (.retry place .test time max) below line (testPass env tested line) where
  stops p replay testLine i replay' store hpass := retry_tick_test hstmt below hpass
  line m replay hm := by
    simp only [nextLine?, hm, Site.stack, hstmt, Option.map_some, Stmt.line]
  handler _ := rfl

theorem retry_tick_body
    (hstmt : env.program.stmt? s.unit place = some (.retry attempts body test line))
    (time max : UInt32) (below : List Frame) (p : Progress σ) :
    (p.machine (s.stack (Frame.new (.retry place .body time max) :: below))).tick env =
      (.running, p.machine (s.stack
        (if test.isSome then Frame.new (.retry place .test time max) :: below else below))) := by
  show runRetry env _ s.unit place .body time max [] below = _
  unfold runRetry
  rw [hstmt]
  cases test <;> rfl

/-- A retry with attempts left takes a fault of its body, and starts the body over. The test is not
evaluated in between. -/
theorem retry_caught {time max : UInt32} (hleft : time < max) {f : Failure}
    (hf : f.fault.isTerminal = false) {p : Progress σ} {m : Machine σ}
    (h : Failing f p (s.stack (Frame.new (.retry place .body time max) :: below)) m) :
    m.tick env = (.running, p.machine (s.stack
      (Frame.block (place.child .body) 0 :: Frame.new (.retry place .body (time + 1) max) ::
        below))) := by
  refine h.tick_caught
    (c := ⟨.retry place time max, ⟨s.unit, below, [], s.saved⟩, s.callers, p.store.scope⟩)
    hf ?_ rfl
  simp only [Site.stack, findCaught, Frame.findInStacks, Frame.findHandler, Frame.new,
    Frame.handler?, if_pos hleft]

/-- The attempts from the given one on, by induction on the rounds that are left. A round ends in
one of three ways: the body is done and the test decides, or it failed and the retry takes the fault
or lets it pass, or the run leaves the body by a return or an exit. -/
theorem attempt_realized (hrun : RunsBlocks env run) (hfits : s.Fits env around)
    (hstmt : env.program.stmt? s.unit place = some (.retry attempts body test line)) (n k : Nat)
    (time max : UInt32) :
    Realizes env s
      (Frame.block (place.child .body) 0 :: Frame.new (.retry place .body time max) :: below) below
      (attempt
        (test.map fun t => evaluate (call env run around.depth line) (testPass env t line) n [])
        (run around body) max k time) := by
  induction k generalizing time with
  | zero => intro p o p' h; cases h
  | succ k ih =>
    have hbody :=
      hrun.child hfits hstmt .body rfl (Frame.new (.retry place .body time max) :: below)
    intro p o p' h
    unfold attempt at h
    -- the three ways in which the body can end
    split at h
    · rename_i q hq
      obtain ⟨m, hshows, rfl⟩ := hbody _ _ _ hq
      have htick := retry_tick_body hstmt time max below q
      cases test with
      | none =>
        cases h
        exact ⟨_, hshows.trans (Shows.tick rfl htick), rfl⟩
      | some tested =>
        have htest : Realizes env s (⟨.retry place .test time max, []⟩ :: below) below
            (Evaluation.andThen
              (evaluate (call env run around.depth line) (testPass env tested line) n [])
              fun again =>
                if again && time < max then
                  attempt
                    (some
                      (evaluate (call env run around.depth line) (testPass env tested line) n []))
                    (run around body) max k (time + 1)
                else Meaning.done) := by
          refine .header hrun hfits (retry_frame_test hstmt) ?_
          intro again q last testLine replay' store hpass
          refine ⟨_, retry_tick_test hstmt below hpass, ?_⟩
          split
          · exact ih (time + 1)
          · exact .done
        obtain ⟨m', hshows', harrives⟩ := htest _ _ _ h
        exact ⟨m', (hshows.trans (Shows.tick rfl htick)).trans hshows', harrives⟩
    · rename_i f q hq
      obtain ⟨m, hshows, hfails⟩ := hbody _ _ _ hq
      split at h
      · rename_i hagain
        simp only [Bool.and_eq_true, Bool.not_eq_true', decide_eq_true_eq] at hagain
        obtain ⟨m', hshows', harrives⟩ := ih (time + 1) q o p' h
        have hcaught : Leads env m [] _ := .tick_running ?_ (retry_caught hagain.2 hagain.1 hfails)
        · exact ⟨m', (hshows.trans ⟨[], (List.append_nil _).symm, hcaught⟩).trans hshows',
            harrives⟩
        · obtain ⟨_, _, rfl, -⟩ := hfails
          rfl
      · rename_i hgone
        cases h
        refine ⟨m, hshows, (arrives_cons (o := .fault f) (fun h => nomatch h) ?_).mp hfails⟩
        intro failure hfailure hterminal
        cases hfailure
        have hspent : ¬ time < max := by simpa [hterminal] using hgone
        simp only [Frame.handler?, Frame.new, if_neg hspent]
    · rename_i hnormal hfault
      obtain ⟨m, hshows, harrives⟩ := hbody p o p' h
      refine ⟨m, hshows, (arrives_cons ?_ ?_).mp harrives⟩
      · exact fun ho => hnormal p' (ho ▸ h)
      · exact fun f ho => absurd (ho ▸ h) (hfault f p')

/-- **Retries.** The number of attempts is evaluated once, and behind it the first attempt starts.
All that comes after is `attempt_realized`. -/
theorem retry_realized (hrun : RunsBlocks env run) (hfits : s.Fits env around)
    (hstmt : env.program.stmt? s.unit place = some (.retry attempts body test line)) (n : Nat)
    (next : Line) :
    Realizes env s (Frame.new (.retry place .enter 0 0) :: below) below
      (stmt env run n around next (.retry attempts body test line)) := by
  refine .header hrun hfits (retry_frame_enter hstmt) ?_
  intro max q last testLine replay' store hpass
  exact ⟨_, retry_tick_enter hstmt below hpass, attempt_realized hrun hfits hstmt n n 1 max⟩

end Retry

/-! ## Try statements -/

section Try

variable {catchVar : Option String} {handler : Block}

/-- A handler that is started gets to see the fault. If its variable is a constant, it starts with a
fault of its own, which its frame does not take. -/
def handed (started : Machine σ) (catchVar : Option String) (line : Line) (f : Failure) :
    Machine σ :=
  match catchVar with
  | none => started
  | some name =>
    match started.scope.set name f.fault.payload with
    | .ok scope => started.withScope scope
    | .error e => started.raise line e

/-- A try statement takes a fault of its body, and starts its handler in the place of the body. From
then on its frame takes no fault any more. -/
theorem try_caught
    (hstmt : env.program.stmt? s.unit place = some (.tryCatch body catchVar handler line))
    {f : Failure} (hf : f.fault.isTerminal = false) {p : Progress σ} {m : Machine σ}
    (h : Failing f p (s.stack (Frame.new (.tryCatch place .body) :: below)) m) :
    m.tick env = (.running,
      handed (p.machine (s.stack
        (Frame.block (place.child .handler) 0 :: Frame.new (.tryCatch place .handler) :: below)))
        catchVar line f) := by
  refine h.tick_caught
    (c := ⟨.tryCatch place, ⟨s.unit, below, [], s.saved⟩, s.callers, p.store.scope⟩)
    hf rfl ?_
  unfold handle handed
  dsimp only
  rw [hstmt]
  cases catchVar with
  | none => rfl
  | some name =>
    dsimp only
    rw [show Machine.scope (σ := σ) _ = p.store.scope from rfl,
      show (p.machine _).scope = p.store.scope from rfl]
    cases p.store.scope.set name f.fault.payload <;> rfl

/-- **Try statements.** A body that ends otherwise than by a fault leaves its frame to be dropped,
or ends the run with it. -/
theorem try_realized (hrun : RunsBlocks env run) (hfits : s.Fits env around)
    (hstmt : env.program.stmt? s.unit place = some (.tryCatch body catchVar handler line)) (n : Nat)
    (next : Line) :
    Realizes env s (Frame.block (place.child .body) 0 :: Frame.new (.tryCatch place .body) :: below)
      below (stmt env run n around next (.tryCatch body catchVar handler line)) := by
  have hbody := hrun.child hfits hstmt .body rfl (Frame.new (.tryCatch place .body) :: below)
  have hhandler : Realizes env s
      (Frame.block (place.child .handler) 0 :: Frame.new (.tryCatch place .handler) :: below) below
      (run around handler) :=
    (hrun.child hfits hstmt .handler rfl _).drop rfl fun _ => rfl
  intro p o p' h
  simp only [stmt, guarded] at h
  split at h
  · rename_i f q hq
    obtain ⟨m, hshows, hfails⟩ := hbody _ _ _ hq
    cases hf : f.fault.isTerminal with
    | true =>
      rw [hf] at h
      cases h
      refine ⟨m, hshows, (arrives_cons (o := .fault f) (fun h => nomatch h) ?_).mp hfails⟩
      intro failure hfailure hterminal
      cases hfailure
      rw [hf] at hterminal
      cases hterminal
    | false =>
      rw [hf] at h
      have hgoing : m.finished = false := by
        obtain ⟨_, _, rfl, -⟩ := hfails
        rfl
      have hcaught := Leads.tick_running hgoing (try_caught hstmt hf hfails)
      cases catchVar with
      | none =>
        obtain ⟨m', hshows', harrives⟩ := hhandler _ _ _ h
        exact ⟨m', (hshows.trans ⟨[], (List.append_nil _).symm, hcaught⟩).trans hshows',
          harrives⟩
      | some name =>
        unfold handed at hcaught
        rw [show (q.machine _).scope = q.store.scope from rfl] at hcaught
        dsimp only at h hcaught
        cases hset : q.store.scope.set name f.fault.payload with
        | ok scope =>
          rw [hset] at h hcaught
          obtain ⟨m', hshows', harrives⟩ := hhandler (q.withScope scope) _ _ h
          have hbound : Shows env q (q.withScope scope) m _ :=
            ⟨[], (List.append_nil _).symm, hcaught⟩
          exact ⟨m', (hshows.trans hbound).trans hshows', harrives⟩
        | error e =>
          rw [hset] at h hcaught
          cases h
          refine ⟨_, hshows.trans ⟨[], (List.append_nil _).symm, hcaught⟩, ?_⟩
          -- the fault of the variable is raised in the handler, whose frame takes none
          have hraised := failing_raise (s := s) (f := Frame.block (place.child .handler) 0) rfl
            (Frame.new (.tryCatch place .handler) :: below) q line e
          exact (arrives_cons (o := .fault ⟨line, e⟩) (fun h => nomatch h) fun _ _ _ => rfl).mp
            hraised
  · rename_i hfault
    obtain ⟨m, hshows, harrives⟩ := hbody p o p' h
    by_cases ho : o = .normal
    · subst ho
      obtain rfl := harrives
      exact ⟨_, hshows.trans (Shows.tick rfl rfl), rfl⟩
    · exact ⟨m, hshows,
        (arrives_cons ho fun f hf => absurd (hf ▸ h) (hfault f p')).mp harrives⟩

end Try

end Stepwise.BigStep
