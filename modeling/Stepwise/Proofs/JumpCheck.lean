import Stepwise.Proofs.ClosedStatements
import Stepwise.Proofs.Constants
import Stepwise.Proofs.Linking
import Stepwise.Proofs.Ticked

/-!
# Jumps to labels that are missing

Linking looks at every jump of a unit and warns if the unit does not have the label. The check is
sound: the listing of a unit leaves out no statement that a position can lead to, a jump is the only
thing that can miss a label, and it misses one only if the table of its unit does not have it. So
**a run that misses a label was warned of, with the same name and line, and a script without such a
warning never misses one** (`missing_labels_warned`).

The three parts stand in this order. The first is about syntax alone: positions lead into a unit by
the turns of a route, and the listing goes through it by recursion, so completeness of the listing
is an induction over the route. The second puts it to the warnings of a program. The third is about
micro-steps, and shows by the cases of `Ticked` where a fault about a label can come from: not from
what is evaluated (`Proofs/ClosedStatements`), not from a call or a handler, so from a jump.

The check is not complete. A jump that is warned of may never be reached, and a label in one unit
does not help a jump in another.
-/

namespace Stepwise

open Relation

/-! ## Listings are complete -/

theorem Stmt.mem_listStatements_of_getElem? {ss : List Stmt} (path : BlockPath)
    (index : Nat) {i : Nat} {s : Stmt} (h : ss[i]? = some s) :
    (⟨path, index + i⟩, s) ∈ Stmt.listStatements path index ss ∧
      ∀ entry ∈ s.nested ⟨path, index + i⟩,
        entry ∈ Stmt.listStatements path index ss := by
  induction ss generalizing index i with
  | nil => simp at h
  | cons first rest ih =>
    rw [Stmt.listStatements]
    cases i with
    | zero =>
      obtain rfl : first = s := by simpa using h
      refine ⟨List.mem_append_left _ List.mem_cons_self, ?_⟩
      intro entry hentry
      exact List.mem_append_left _ (List.mem_cons_of_mem _ hentry)
    | succ i =>
      have hrest : rest[i]? = some s := by simpa using h
      obtain ⟨hhere, hnested⟩ := ih (index + 1) hrest
      have hindex : index + 1 + i = index + (i + 1) := by omega
      rw [hindex] at hhere hnested
      refine ⟨List.mem_append_right _ hhere, ?_⟩
      intro entry hentry
      exact List.mem_append_right _ (hnested entry hentry)

theorem Branch.mem_listStatements_of_getElem? {branches : List Branch} {place : StmtPath}
    {index j : Nat} {branch : Branch} (h : branches[j]? = some branch) {entry : StmtPath × Stmt}
    (hentry : entry ∈ branch.block.statements (place.child (.branch (index + j)))) :
    entry ∈ Branch.listStatements place index branches := by
  induction branches generalizing index j with
  | nil => simp at h
  | cons first rest ih =>
    obtain ⟨test, block⟩ := first
    rw [Branch.listStatements]
    cases j with
    | zero =>
      obtain rfl : Branch.mk test block = branch := by simpa using h
      exact List.mem_append_left _ hentry
    | succ j =>
      have hrest : rest[j]? = some branch := by simpa using h
      have hindex : index + (j + 1) = index + 1 + j := by omega
      rw [hindex] at hentry
      exact List.mem_append_right _ (ih hrest hentry)

theorem Stmt.mem_nested_of_block? {s : Stmt} {place : StmtPath} {sel : BlockSel} {c : Block}
    (h : s.block? sel = some c) {entry : StmtPath × Stmt}
    (hentry : entry ∈ c.statements (place.child sel)) : entry ∈ s.nested place := by
  unfold Stmt.block? at h
  split at h
  · cases h
    exact hentry
  · obtain ⟨branch, hbranch, rfl⟩ := Option.map_eq_some_iff.mp h
    rw [Stmt.nested]
    refine List.mem_append_left _ (Branch.mem_listStatements_of_getElem? hbranch ?_)
    rw [Nat.zero_add]
    exact hentry
  · subst h
    exact List.mem_append_right _ hentry
  · cases h
    exact hentry
  · cases h
    exact hentry
  · cases h
    exact hentry
  · cases h
    exact List.mem_append_left _ hentry
  · cases h
    exact List.mem_append_right _ hentry
  · cases h
    exact hentry
  · cases h

/-- **A listing has every statement that a position leads to.** By induction over the route, each
turn of which goes into a block of a statement. -/
theorem Block.mem_statements_of_follow? {b c : Block} (path : BlockPath) {rest : BlockPath}
    {index : Nat} {s : Stmt} (hc : b.follow? rest = some c) (hs : c.body[index]? = some s) :
    (⟨path ++ rest, index⟩, s) ∈ b.statements path := by
  induction rest generalizing b path with
  | nil =>
    obtain rfl : b = c := Option.some.inj hc
    obtain ⟨body, line, endLine⟩ := b
    have hhere := (Stmt.mem_listStatements_of_getElem? path 0 hs).1
    rw [Nat.zero_add] at hhere
    rw [List.append_nil]
    exact hhere
  | cons step rest ih =>
    obtain ⟨i, sel⟩ := step
    obtain ⟨stmt, child, hstmt, hchild, hrest⟩ := Block.follow?_cons_eq_some.mp hc
    obtain ⟨body, line, endLine⟩ := b
    have hnested := (Stmt.mem_listStatements_of_getElem? path 0 hstmt).2
    rw [Nat.zero_add] at hnested
    refine hnested _ (Stmt.mem_nested_of_block? hchild ?_)
    have hpath : path ++ (i, sel) :: rest = StmtPath.child ⟨path, i⟩ sel ++ rest := by
      simp [StmtPath.child]
    rw [hpath]
    exact ih _ hrest

theorem Block.mem_jumpSites {b : Block} {place : StmtPath} {s : Stmt} {site : JumpSite}
    (hs : b.stmtAt? place = some s) (hsite : s.jumpSite? = some site) : site ∈ b.jumpSites := by
  obtain ⟨c, hc, hindex⟩ := Block.stmtAt?_eq_some.mp hs
  have hmem := Block.mem_statements_of_follow? [] hc hindex
  exact List.mem_filterMap.mpr ⟨_, hmem, hsite⟩

/-! ## Warnings -/

theorem LabelTable.mem_undefined {table : LabelTable} {jumps : List JumpSite} {site : JumpSite}
    (hmem : site ∈ jumps) (hnone : Assoc.get? site.label table = none) :
    .undefinedLabel site.line site.label ∈ table.undefined jumps := by
  refine List.mem_map.mpr ⟨site, List.mem_filter.mpr ⟨hmem, ?_⟩, rfl⟩
  simp [Assoc.contains, hnone]

/-- **Linking warns of every jump whose label its unit does not have.** The main unit is checked
against its own table, and every function that the table of functions has against its own. A
function that is hidden by a later one of its name is not checked, and never runs. -/
theorem Program.warned {script : Block} {u : CodeUnit} {place : StmtPath} {s : Stmt}
    {site : JumpSite} (hs : (link script).stmt? u place = some s) (hsite : s.jumpSite? = some site)
    (hnone : (link script).label? u site.label = none) :
    .undefinedLabel site.line site.label ∈ (link script).warnings := by
  cases u with
  | main =>
    have hmem : site ∈ script.linked.jumpSites := Block.mem_jumpSites hs hsite
    have hwarned := LabelTable.mem_undefined hmem hnone
    simp only [link, List.mem_append]
    exact .inl (.inr hwarned)
  | function name =>
    rcases hd : (link script).function? name with _ | d
    · simp [stmt?, unitRoot?, hd] at hs
    · have hbody : d.body.stmtAt? place = some s := by simpa [stmt?, unitRoot?, hd] using hs
      have htable : Assoc.get? site.label d.labels = none := by simpa [label?, hd] using hnone
      have hentry := Assoc.mem_of_get? hd
      have hwarned := LabelTable.mem_undefined (Block.mem_jumpSites hbody hsite) htable
      simp only [link, List.mem_append]
      exact .inr (List.mem_flatMap.mpr ⟨_, hentry, hwarned⟩)

/-! ## Micro-steps -/

namespace Machine

variable {σ : Type} {env : Setting σ} {m m' : Machine σ} {line : Line} {name : String}

/-- The statement in front is a jump, and its unit does not have the label. -/
inductive MissesLabel (env : Setting σ) (m : Machine σ) (line : Line) (name : String) : Prop where
  | intro {u : CodeUnit} {path : BlockPath} {next : Nat} {replay : List Value} {below : List Frame}
      {subroutines : List (List Frame)} {saved : List (String × Option Value)}
      {callers : List Activation} {s : Stmt}
      (front : m.activations =
        ⟨u, ⟨.block path next, replay⟩ :: below, subroutines, saved⟩ :: callers)
      (stmt : env.program.stmt? u ⟨path, next⟩ = some s)
      (jump : s.jumpSite? = some ⟨name, line⟩) (missing : env.program.label? u name = none)

/-- What is wrong with a call of a subroutine: it is nested too deep, or its label is missing. -/
theorem gosub_error {u : CodeUnit} {frames : List Frame} {subroutines : List (List Frame)}
    {saved : List (String × Option Value)} {callers : List Activation} {label : String}
    {fault : Fault} (hm : m.activations = ⟨u, frames, subroutines, saved⟩ :: callers)
    (h : m.gosub env label = some (.error fault)) :
    fault = .callDepthExceeded env.options.maxCallDepth ∨
      fault = .undefinedLabel label ∧ env.program.label? u label = none := by
  rw [gosub, hm] at h
  dsimp only at h
  split at h
  · cases h
    exact .inl rfl
  split at h
  · rename_i hlabel
    cases h
    exact .inr ⟨rfl, Option.isNone_iff_eq_none.mp hlabel⟩
  · -- the label is there, and putting the stack aside does not change that
    rename_i hlabel
    have hput :
        (m.mapTop fun act =>
          { act with subroutines := act.frames :: act.subroutines }).activations =
        ⟨u, frames, frames :: subroutines, saved⟩ :: callers := by
      simp only [mapTop, hm]
    obtain ⟨hjump, -⟩ | ⟨-, hnone⟩ | ⟨target, root, frames', hjump, -⟩ :=
      jump_cases env hput label
    · rw [hjump] at h
      cases h
    · simp [hnone] at hlabel
    · rw [hjump] at h
      cases h

/-- **No statement and no header raises a fault about where the run goes**, by what it evaluates or
by what it writes. -/
theorem Stopped.ofValues {u : CodeUnit} {kind : FrameKind} {replay replay' : List Value}
    {store : Store σ} {i : Interrupt} (h : Stopped env m u kind replay replay' store line i) :
    i.OfValues Anything := by
  cases h with
  | statement hstmt hexec hresult =>
    have hfares := (Stmt.execute_all .everything (fun _ _ _ _ => trivial) (fun _ _ => trivial)
      (fun _ _ => trivial) hexec).result
    rw [hresult] at hfares
    exact hfares
  | header same reason =>
    cases reason with
    | @expr e st st' _ stops =>
      obtain ⟨hfares, -⟩ := Eval.Keeps.expr (P := Anything) (c := env.context m.store)
        ⟨.everything, fun _ _ => trivial, fun _ _ _ _ => trivial⟩ e st (fun _ _ => trivial)
      rw [show (Eval.expr (env.context m.store) e).run.run st = _ from stops] at hfares
      exact hfares
    | @attempts v f refused =>
      have hgives := attemptsOf_gives (P := Anything) v
      rw [refused] at hgives
      exact hgives

theorem ofValues_of_set {s : Scope} {v : Value} {f : Fault} (h : s.set name v = .error f) :
    f.OfValues Anything := by
  have hgives : Gives Anything _ (s.set name v) := Scope.All.set (fun _ _ => trivial) name trivial
  rw [h] at hgives
  exact hgives

theorem ofValues_of_bindParams {scope scope' : Scope} {saved : List (String × Option Value)}
    {pairs : List (String × Value)} {f : Fault}
    (h : bindParams scope saved pairs = (.error f, scope')) : f.OfValues Anything := by
  have hall : Gives Anything _ (bindParams scope saved pairs).1 ∧ _ :=
    bindParams_all (fun _ _ => trivial) (fun _ _ _ _ => trivial) (fun _ _ => trivial)
  rw [h] at hall
  exact hall.1

/-- No fault about a label is looking for a handler. -/
def Unmissed (m : Machine σ) : Prop :=
  ∀ line name, m.pending ≠ some ⟨line, .undefinedLabel name⟩

namespace Unmissed

theorem of_none (h : m.pending = none) : m.Unmissed := by
  intro line name hsome
  rw [h] at hsome
  cases hsome

theorem raise {fault : Fault} (h : ∀ label, fault ≠ .undefinedLabel label) (line : Line) :
    (m.raise line fault).Unmissed := by
  intro line' name hsome
  obtain ⟨-, hfault⟩ := Failure.mk.inj (Option.some.inj hsome)
  exact h name hfault

theorem raise_of_values {P : Value → Prop} {fault : Fault} (h : fault.OfValues P) (line : Line) :
    (m.raise line fault).Unmissed := by
  refine raise ?_ line
  rintro label rfl
  cases h

theorem callFunction (going : m.pending = none) (line : Line) (name : String) (args : List Value) :
    (m.callFunction env line name args).Unmissed := by
  unfold Machine.callFunction
  split
  · exact raise (by rintro _ ⟨⟩) line
  split
  · exact raise (by rintro _ ⟨⟩) line
  split
  · exact raise (by rintro _ ⟨⟩) line
  split
  · rename_i f scope hbind
    exact raise_of_values (ofValues_of_bindParams hbind) line
  · exact of_none going

theorem handle {failure : Failure} {c : Caught} (h : m.handle env failure c = some m') :
    m'.Unmissed := by
  unfold Machine.handle at h
  dsimp only at h
  split at h
  · cases h
    exact of_none (pending_withFrames _ _)
  split at h
  · split at h
    · cases h
      exact of_none (pending_withFrames _ _)
    · split at h
      · cases h
        exact of_none (pending_withFrames _ _)
      · rename_i f hset
        cases h
        exact raise_of_values (ofValues_of_set hset) _
  · cases h

end Unmissed

theorem unwind_unmissed (env : Setting σ) (m : Machine σ) (failure : Failure) :
    (m.unwind env failure).2 = m ∨ (m.unwind env failure).2.Unmissed := by
  unfold unwind
  split
  · exact .inr (.of_none rfl)
  split
  · exact .inr (.of_none rfl)
  split
  · rename_i m' hhandle
    exact .inr (.handle hhandle)
  · exact .inl rfl

/-- What a statement that is done asks for. Only the two kinds of jump look for a label, and both in
the table of the unit they stand in. -/
theorem apply_missesLabel {m₁ : Machine σ} {u : CodeUnit} {path : BlockPath} {next : Nat}
    {replay replay' : List Value} {below : List Frame} {subroutines : List (List Frame)}
    {saved : List (String × Option Value)} {callers : List Activation} {stmt : Stmt}
    {effect : Effect}
    (front : m.activations =
      ⟨u, ⟨.block path next, replay⟩ :: below, subroutines, saved⟩ :: callers)
    (hstmt : env.program.stmt? u ⟨path, next⟩ = some stmt) (yields : stmt.Yields effect)
    (passed : m₁.activations =
      ⟨u, ⟨.block path (next + 1), replay'⟩ :: below, subroutines, saved⟩ :: callers)
    (going : m₁.pending = none)
    (raised : (m₁.apply env stmt.line effect).2.pending = some ⟨line, .undefinedLabel name⟩) :
    MissesLabel env m line name := by
  -- all that is done without a fault leaves none
  have quiet : ∀ (m₂ : Machine σ) (v : Option Value), m₂.pending = none →
      (m₂.recorded env stmt.line v).2.pending ≠ some ⟨line, .undefinedLabel name⟩ := by
    intro m₂ v hnone
    rw [recorded_snd]
    exact Unmissed.of_none hnone line name
  cases yields with
  | value plain v => exact absurd raised (quiet m₁ v going)
  | delay duration l ns v =>
    exact absurd raised (quiet { m₁ with delay := some ns } (some v) going)
  | suspend l => exact absurd raised (quiet { m₁ with suspended := true } none going)
  | exit value l v => exact absurd raised (quiet (m₁.terminate v) v going)
  | ret value l v => exact absurd raised (quiet (m₁.ret v) v ((pending_ret m₁ v).trans going))
  | jump label l =>
    rw [apply] at raised
    obtain ⟨hjump, -⟩ | ⟨hjump, hnone⟩ | ⟨target, root, frames, hjump, -⟩ :=
      jump_cases env passed label
    · rw [hjump] at raised
      exact absurd raised (Unmissed.of_none going line name)
    · rw [hjump] at raised
      cases raised
      exact .intro front hstmt rfl hnone
    · rw [hjump] at raised
      exact absurd raised (quiet _ none ((pending_jump hjump).trans going))
  | sub label l =>
    rw [apply] at raised
    rcases hgosub : m₁.gosub env label with _ | fault | m₂
    · rw [hgosub] at raised
      exact absurd raised (Unmissed.of_none going line name)
    · rw [hgosub] at raised
      obtain rfl | ⟨rfl, hnone⟩ := gosub_error passed hgosub
      · cases raised
      · cases raised
        exact .intro front hstmt rfl hnone
    · rw [hgosub] at raised
      exact absurd raised (quiet m₂ none ((pending_gosub hgosub).trans going))

/-- **Only a jump misses a label**, and only one that its unit does not have. A fault may also be
the one that was pending before. -/
theorem Ticked.missesLabel {r : Tick × Machine σ} (h : Ticked env m r)
    (raised : r.2.pending = some ⟨line, .undefinedLabel name⟩) :
    m.pending = some ⟨line, .undefinedLabel name⟩ ∨ MissesLabel env m line name := by
  cases h with
  | astray => exact .inl raised
  | cancelled => cases raised
  | @unwind failure pending =>
    -- the fault is handled or ends the run; it stays only where a position leads nowhere
    obtain hsame | hunmissed := unwind_unmissed env m failure
    · rw [hsame] at raised
      exact .inl raised
    · exact absurd raised (hunmissed line name)
  | idle => exact .inl raised
  | ended => cases raised
  | back going =>
    exact absurd raised (Unmissed.of_none ((pending_returnFromFunction m _).trans going) line name)
  | @moved store going same frames =>
    have hnone := (pending_withFrames { m with store } frames).trans going
    exact absurd raised (Unmissed.of_none hnone line name)
  | @ran _ path next _ below _ _ _ _ e _ going front hstmt hexec hresult =>
    have passed := withFrames_activations (m := { m with store := e.store }) front
      (⟨.block path (next + 1), e.replay⟩ :: below)
    exact .inr (apply_missesLabel front hstmt (Stmt.yields_of_execute hexec hresult) passed
      ((pending_withFrames _ _).trans going) raised)
  | @stopped _ _ _ _ _ _ _ _ store l i going front stops =>
    have hnone : ∀ frames, ({ m with store }.withFrames frames).pending = none := fun frames =>
      (pending_withFrames _ frames).trans going
    cases i with
    | call callee args =>
      exact absurd raised (Unmissed.callFunction (hnone _) l callee args line name)
    | fault f =>
      exact absurd raised (Unmissed.raise_of_values stops.ofValues l line name)

theorem apply_ne_failed (env : Setting σ) (m : Machine σ) (line : Line) (effect : Effect)
    (failure : Failure) : (m.apply env line effect).1 ≠ .failed failure := by
  -- what is done shows a record, or loses its place
  have quiet : ∀ (m₂ : Machine σ) (v : Option Value),
      (m₂.recorded env line v).1 ≠ .failed failure := by
    intro m₂ v heq
    unfold recorded at heq
    split at heq <;> cases heq
  cases effect with
  | value v => exact quiet m v
  | jump label =>
    rw [apply]
    split
    · intro heq
      cases heq
    · intro heq
      cases heq
    · exact quiet _ none
  | sub label =>
    rw [apply]
    split
    · intro heq
      cases heq
    · intro heq
      cases heq
    · exact quiet _ none
  | ret v => exact quiet _ v
  | exit status => exact quiet _ status
  | delay ns v => exact quiet _ (some v)
  | suspend => exact quiet _ none

theorem Ticked.failed {r : Tick × Machine σ} {failure : Failure} (h : Ticked env m r)
    (hfailed : r.1 = .failed failure) :
    failure.fault = .cancelled ∨ m.pending = some failure := by
  cases h with
  | astray => cases hfailed
  | cancelled =>
    cases hfailed
    exact .inl rfl
  | unwind pending =>
    unfold Machine.unwind at hfailed
    split at hfailed
    · cases hfailed
      exact .inr pending
    split at hfailed
    · cases hfailed
      exact .inr pending
    split at hfailed <;> cases hfailed
  | idle => cases hfailed
  | ended => cases hfailed
  | back => cases hfailed
  | moved => cases hfailed
  | ran => exact absurd hfailed (apply_ne_failed _ _ _ _ _)
  | stopped => cases hfailed

/-- **The check of jumps is sound.** A label that a run misses is one that linking has warned of,
with the line of the jump. Where it has not warned of any, no run misses one, whatever its scope,
its host and its options are. -/
theorem missing_labels_warned {script : Block} (hprogram : env.program = Program.link script) :
    (∀ (m : Machine σ) (line : Line) (name : String), m.pending ≠
      some ⟨line, .undefinedLabel name⟩ →
        (m.tick env).2.pending = some ⟨line, .undefinedLabel name⟩ →
      MissesLabel env m line name ∧ .undefinedLabel line name ∈ env.program.warnings) ∧
    ((∀ w ∈ env.program.warnings, w.isFatal = false) →
      ∀ (m : Machine σ), Reachable env m →
        ∀ line name, m.pending ≠ some ⟨line, .undefinedLabel name⟩ ∧
          (m.tick env).1 ≠ .failed ⟨line, .undefinedLabel name⟩) := by
  -- one micro-step: where the fault is new, the jump was in front, and linking has seen that jump
  have warned : ∀ (m : Machine σ) (line : Line) (name : String),
      m.pending ≠ some ⟨line, .undefinedLabel name⟩ →
      (m.tick env).2.pending = some ⟨line, .undefinedLabel name⟩ →
      MissesLabel env m line name ∧ .undefinedLabel line name ∈ env.program.warnings := by
    intro m line name hnew raised
    have misses := ((tick_ticked env m).missesLabel raised).resolve_left hnew
    refine ⟨misses, ?_⟩
    obtain ⟨front, hstmt, hjump, hmissing⟩ := misses
    rw [hprogram] at hstmt hmissing ⊢
    exact Program.warned hstmt hjump hmissing
  refine ⟨warned, ?_⟩
  intro clean m reached
  -- along a run: without warnings there is never such a fault pending
  have unmissed : m.Unmissed := by
    induction reached using Reachable.run_induction with
    | new => exact .of_none rfl
    | @act m m' _ hact ih =>
      intro line name raised
      cases hact with
      | tick =>
        obtain ⟨-, hwarning⟩ := warned m line name (ih line name) raised
        exact absurd (clean _ hwarning) Bool.noConfusion
      | finish => exact ih line name raised
      | handled h =>
        rw [h.pending] at raised
        exact ih line name raised
  intro line name
  refine ⟨unmissed line name, ?_⟩
  intro hfailed
  -- a run fails with a cancellation or with what was pending
  obtain hcancelled | hpending := (tick_ticked env m).failed hfailed
  · cases hcancelled
  · exact unmissed line name hpending

/-- The label that a fault is about. -/
def missingLabel? : Fault → Option String
  | .undefinedLabel name => some name
  | _ => none

theorem eq_of_missingLabel? {fault : Fault} (h : missingLabel? fault = some name) :
    fault = .undefinedLabel name := by
  cases fault with
  | undefinedLabel label =>
    cases h
    rfl
  | _ => cases h

/-- A function jumps to a label that only the main program has. It is the same name that the jump of
the main program has, so a check by names alone would not see it. -/
def straying : Block :=
  .mk
    [.function "f" [] (.mk [.gosub "here" 2] 1 3) 1, .call "f" [] 4, .label "here" 5,
      .goto "here" 6]
    0 7

/-- The jump of the function misses its label, and linking has warned of it; the jump of the main
program is no matter for a warning. -/
theorem missing_labels_warned_straying :
    let env : Setting Unit := ⟨Program.link straying, .default, .null ""⟩
    let m := (Machine.new (.ofInputs []) ()).ticks env 2
    (m.tick env).2.pending = some ⟨2, .undefinedLabel "here"⟩ ∧ MissesLabel env m 2 "here" ∧
      .undefinedLabel 2 "here" ∈ env.program.warnings ∧
      .undefinedLabel 6 "here" ∉ env.program.warnings := by
  intro env m
  have hnone : m.pending.isNone = true := by decide +kernel
  have hseen : ((m.tick env).2.pending.map fun f => (f.line, missingLabel? f.fault)) =
      some (2, some "here") := by
    decide +kernel
  have hother : .undefinedLabel 6 "here" ∉ env.program.warnings := by decide +kernel
  have sound := (missing_labels_warned (rfl : env.program = Program.link straying)).1 m 2 "here"
  obtain ⟨⟨line, fault⟩, hraised, hpair⟩ := Option.map_eq_some_iff.mp hseen
  obtain ⟨rfl, hlabel⟩ := Prod.mk.inj hpair
  obtain rfl := eq_of_missingLabel? hlabel
  have hnew : m.pending ≠ some ⟨2, .undefinedLabel "here"⟩ :=
    Unmissed.of_none (Option.isNone_iff_eq_none.mp hnone) 2 "here"
  obtain ⟨hmisses, hwarned⟩ := sound hnew hraised
  exact ⟨hraised, hmisses, hwarned, hother⟩

end Machine

end Stepwise
