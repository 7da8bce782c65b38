import Mathlib.Data.List.ModifyLast
import Stepwise.Proofs.ReplayLists
import Stepwise.Proofs.Safety

/-!
# Where replayed results come from

A book is kept beside each running unit: the calls that the statement or header in front has made
since its execution began. It has the name of each, the scope in which it was made, and what it came
back with. A book grows where an execution stops for a function. While the function runs it stays as
it is, and its last call is the one that has no result. When the function returns, the value that
its last statement yields is entered for that call, and once the execution is over the book is empty
again.

The replay lists have no say in this but for the moment at which an evaluation stops: then the calls
before are entered with the results that it has for them. Afterwards the books and the lists are
kept apart. A list that outlives its execution, that loses a result, or that has the value of one
call in the place of another would show against the books.

**Every result on a list is the value of a call of the book** (`results_owned`), and goes to a call
of the same name if the scope still has the same values for the variables that decide which calls
are made. Without that it may go to another one: results are found by their place, and a function
can change what its caller has decided on (`result_misplaced`).

## Layout

Books are computed from a run, by a function of the machine and of its next activations (`audit`).
`Balanced` relates them to the units: the unit in front has a result for every call of its book, and
each unit below has one for every call but the last, which is the one the unit above runs for. A
micro-step keeps that (`Balanced.tick`). What it does to replay lists is taken from `tick_replays`
of `Proofs/ReplayLists`, and which calls an evaluation reaches from
`Evaluation.asks` of `Proofs/Evaluating`, so neither the machine nor the evaluator is opened here.
-/

namespace Stepwise

/-- A call that was made, as the book has it. -/
structure Producer where
  name : String
  /-- Where its arguments were evaluated. -/
  scope : Scope
  /-- What it came back with, once it has. -/
  result : Option Value

variable {σ : Type} {env : Setting σ}

/-- The calls that a unit reaches in a scope, with the results that it has. -/
def Activation.asks (env : Setting σ) (s : Scope) (act : Activation) : List String :=
  (act.evaluation env.program).asks env.options.strictOutputs s act.replay

/-- The calls that a unit has made in a scope behind the first `done`, with the results that it has
for them. -/
def Activation.made (env : Setting σ) (s : Scope) (act : Activation) (done : Nat) :
    List Producer :=
  ((act.asks env s).mapIdx fun i name => ⟨name, s, act.replay[i]?⟩).drop done

namespace Machine

variable {m : Machine σ} {books : List (List Producer)}

/-! ## Books -/

/-- A function was called. The calls that its caller made on the way are new in the book, and come
behind those that are in it. The function itself starts with an empty book. -/
def entered (env : Setting σ) (s : Scope) :
    List Activation → List (List Producer) → List (List Producer)
  | _ :: waiting :: _, book :: older =>
    [] :: (book ++ waiting.made env s book.length) :: older
  | _, books => books

/-- A function has come back with this value. Its caller has waited for it with its last call. -/
def answered (v : Option Value) : List (List Producer) → List (List Producer)
  | book :: older => book.modifyLast (fun p => { p with result := v }) :: older
  | [] => []

/-- The execution in front is over. -/
def closed : List (List Producer) → List (List Producer)
  | _ :: older => [] :: older
  | [] => []

/-- The books of a machine that comes to these activations: a function was called, or has returned,
or neither. Which it was is seen from the number of units, and from whether a fault was on its
way. -/
def rebook (env : Setting σ) (m : Machine σ) (acts : List Activation)
    (books : List (List Producer)) : List (List Producer) :=
  let left := books.drop (m.activations.length - acts.length)
  if m.activations.length < acts.length then entered env m.scope acts books
  -- a fault that leaves functions ends the execution it comes to
  else if acts.length < m.activations.length ∧ m.pending = none then answered (m.yields? env) left
  else closed left

/-- The books behind the next micro-step. -/
def audit (env : Setting σ) (m : Machine σ) (books : List (List Producer)) :
    List (List Producer) :=
  m.rebook env (m.tick env).2.activations books

section

variable {acts : List Activation}

theorem rebook_called (h : m.activations.length < acts.length) :
    m.rebook env acts books = entered env m.scope acts books := if_pos h

theorem rebook_returned (h : acts.length + 1 = m.activations.length) (going : m.pending = none) :
    m.rebook env acts books = answered (m.yields? env) (books.drop 1) := by
  have hmany : m.activations.length - acts.length = 1 := by omega
  rw [rebook, if_neg (by omega), if_pos ⟨by omega, going⟩, hmany]

/-- Where no function was called and none has returned a value, the execution in front is over.
Units that a fault has left take their books along. -/
theorem rebook_ended {n : Nat} (h : acts.length + n = m.activations.length)
    (hended : n = 0 ∨ m.pending ≠ none) : m.rebook env acts books = closed (books.drop n) := by
  have hmany : m.activations.length - acts.length = n := by omega
  have hnot : ¬ (acts.length < m.activations.length ∧ m.pending = none) := by
    rintro ⟨hless, hnone⟩
    rcases hended with hzero | hfailed
    · omega
    · exact hfailed hnone
  rw [rebook, if_neg (by omega), if_neg hnot, hmany]

theorem rebook_over (h : books.length = m.activations.length) : m.rebook env [] books = [] := by
  have hnil : books.drop (m.activations.length - ([] : List Activation).length) = [] := by
    simp [← h]
  have hless : ¬ m.activations.length < ([] : List Activation).length := Nat.not_lt_zero _
  rw [rebook, if_neg hless, hnil]
  split <;> rfl

end

/-- A run with its books. Between micro-steps the owner may do to a machine what leaves its position
alone: no book depends on the rest. -/
inductive Audited (env : Setting σ) : Machine σ → List (List Producer) → Prop where
  | new (scope : Scope) (world : σ) : Audited env (Machine.new scope world) [[]]
  | tick {m : Machine σ} {books : List (List Producer)} (h : Audited env m books) :
      Audited env (m.tick env).2 (m.audit env books)
  | own {m m' : Machine σ} {books : List (List Producer)} (h : Audited env m books)
      (kept : m'.activations = m.activations) : Audited env m' books

theorem Reachable.audited (h : Reachable env m) : ∃ books, Audited env m books := by
  induction h using Reachable.run_induction with
  | new scope world => exact ⟨_, .new scope world⟩
  | act _ hact ih =>
    obtain ⟨books, audited⟩ := ih
    obtain hsame | rfl := hact.cases_activations
    · exact ⟨books, audited.own hsame⟩
    · exact ⟨_, audited.tick⟩

theorem Audited.placed (h : Audited env m books) :
    Activation.AllPlaced env.program m.activations := by
  induction h with
  | new scope world => exact (Reachable.new scope world).placed
  | @tick m _ _ ih => exact (tick_moved env m).moves.placed ih
  | own _ kept ih => exact kept ▸ ih

/-! ## What a book says -/

/-- The calls of a book are the first that are reached, each in its own scope. The scopes differ, as
functions have run in between. -/
structure Page (env : Setting σ) (act : Activation) (book : List Producer) : Prop where
  behind : act.Behind
  reached : ∀ (i : Nat) (p : Producer), book[i]? = some p →
    (act.asks env p.scope)[i]? = some p.name

/-- The values of the calls of a book are those on a list. -/
def Answers (book : List Producer) (replay : List Value) : Prop :=
  book.map Producer.result = replay.map some

/-- Units that wait for the one above them: the last call of each has no result yet, and is the one
that the unit above runs. So the name in the book is tied to the unit that runs. -/
inductive Waiting (env : Setting σ) :
    CodeUnit → List Activation → List (List Producer) → Prop where
  | bottom : Waiting env .main [] []
  | caller {act : Activation} {book : List Producer} {p : Producer} {callers : List Activation}
      {older : List (List Producer)} (page : Page env act (book ++ [p]))
      (results : Answers book act.replay) (unanswered : p.result = none)
      (rest : Waiting env act.unit callers older) :
      Waiting env (.function p.name) (act :: callers) ((book ++ [p]) :: older)

/-- The books of all units, from the one in front. It is the invariant of a run. -/
inductive Balanced (env : Setting σ) : List Activation → List (List Producer) → Prop where
  | ended : Balanced env [] []
  | front {act : Activation} {book : List Producer} {callers : List Activation}
      {older : List (List Producer)} (page : Page env act book)
      (results : Answers book act.replay) (waiting : Waiting env act.unit callers older) :
      Balanced env (act :: callers) (book :: older)

namespace Answers

variable {book : List Producer} {replay : List Value}

theorem length (h : Answers book replay) : book.length = replay.length := by
  simpa using congrArg List.length h

theorem nil : Answers [] [] := rfl

theorem concat (h : Answers book replay) {p : Producer} {v : Value} (hp : p.result = some v) :
    Answers (book ++ [p]) (replay ++ [v]) := by
  have hbook : book.map Producer.result = replay.map some := h
  simp [Answers, hbook, hp]

theorem result (h : Answers book replay) {i : Nat} {p : Producer} (hp : book[i]? = some p) :
    p.result = replay[i]? := by
  have hresult := congrArg (fun results => results[i]?) h
  simp only [List.getElem?_map, hp, Option.map_some] at hresult
  cases hv : replay[i]? with
  | none =>
    rw [hv] at hresult
    cases hresult
  | some v =>
    rw [hv] at hresult
    exact Option.some.inj hresult

/-- Calls that are entered with their results go with the results that were there before. An
evaluation that is started again keeps its results and may add more, from calls of builtins and
services. -/
theorem made {replay' : List Value} {before : List String} {s : Scope} (h : Answers book replay)
    (hgrown : replay <+: replay') (hlength : before.length = replay'.length) :
    Answers (book ++ (before.mapIdx fun i name => Producer.mk name s replay'[i]?).drop book.length)
      replay' := by
  obtain ⟨more, rfl⟩ := hgrown
  have hall : (before.mapIdx fun i name => Producer.mk name s (replay ++ more)[i]?).map
      Producer.result = (replay ++ more).map some := by
    apply List.ext_getElem?
    intro i
    simp only [List.getElem?_map, List.getElem?_mapIdx, Option.map_map]
    by_cases hi : i < before.length
    · rw [List.getElem?_eq_getElem hi, List.getElem?_eq_getElem (hlength ▸ hi)]
      rfl
    · rw [List.getElem?_eq_none (Nat.le_of_not_lt hi),
        List.getElem?_eq_none (hlength ▸ Nat.le_of_not_lt hi)]
      rfl
  have hbook : book.map Producer.result = replay.map some := h
  rw [Answers, List.map_append, List.map_drop, hall, hbook, h.length, List.map_append,
    List.drop_append_of_le_length (by simp), List.drop_of_length_le (by simp), List.nil_append]

end Answers

namespace Page

variable {act : Activation} {book : List Producer}

theorem idle (h : act.Idle) : Page env act [] := ⟨h.behind, nofun⟩

theorem nothing (h : Page env act book) (hnothing : act.evaluation env.program = .nothing) :
    book = [] := by
  rcases book with _ | ⟨p, rest⟩
  · rfl
  · have hreached := h.reached 0 p rfl
    simp only [Activation.asks, hnothing, Evaluation.asks] at hreached
    cases hreached

/-- What a call comes back with has no say in which calls are reached. A page is about names and
scopes, and results are the matter of `Answers`. -/
theorem answer {p : Producer} (h : Page env act (book ++ [p])) (v : Option Value) :
    Page env act (book ++ [{ p with result := v }]) := by
  refine ⟨h.behind, fun i q hq => ?_⟩
  by_cases hi : i < book.length
  · refine h.reached i q ?_
    rw [List.getElem?_append_left hi] at hq ⊢
    exact hq
  · have hle : book.length ≤ i := Nat.le_of_not_lt hi
    rw [List.getElem?_append_right hle, List.getElem?_singleton] at hq
    split at hq
    · rename_i hlast
      cases hq
      refine h.reached i p ?_
      rw [List.getElem?_append_right hle, List.getElem?_singleton, if_pos hlast]
    · cases hq

section

variable {u : CodeUnit} {kind : FrameKind} {replay replay' : List Value} {below : List Frame}
  {subroutines : List (List Frame)} {saved : List (String × Option Value)}

/-- More results leave the calls of a book where they are: an evaluation reaches the same calls
first, and only then further ones. -/
theorem grow (h : Page env ⟨u, ⟨kind, replay⟩ :: below, subroutines, saved⟩ book)
    (hgrown : replay <+: replay') :
    Page env ⟨u, ⟨kind, replay'⟩ :: below, subroutines, saved⟩ book := by
  refine ⟨⟨h.behind.below, h.behind.aside⟩, fun i p hp => ?_⟩
  obtain ⟨more, rfl⟩ := hgrown
  obtain ⟨further, hfurther⟩ := Evaluation.asks_prefix env.options.strictOutputs p.scope
    (kind.evaluation env.program u) replay more
  have hreached := h.reached i p hp
  obtain ⟨hlt, -⟩ := List.getElem?_eq_some_iff.mp hreached
  show ((kind.evaluation env.program u).asks _ p.scope (replay ++ more))[i]? = some p.name
  rw [← hfurther]
  exact (List.getElem?_append_left hlt).trans hreached

/-- An evaluation that stops for a function has a result for each call of the book but the last.
This is the one rule by which a book grows. -/
theorem call {s : Scope} {name : String}
    (h : Page env ⟨u, ⟨kind, replay⟩ :: below, subroutines, saved⟩ book)
    (results : Answers book replay)
    (stops : Stops env.options.strictOutputs (kind.evaluation env.program u) s replay
      replay' name) :
    ∃ made,
      book ++ Activation.made env s ⟨u, ⟨kind, replay'⟩ :: below, subroutines, saved⟩
        book.length = made ++ [⟨name, s, none⟩] ∧ Answers made replay' ∧
      Page env ⟨u, ⟨kind, replay'⟩ :: below, subroutines, saved⟩
        (made ++ [⟨name, s, none⟩]) := by
  obtain ⟨before, hasks, hbefore⟩ := stops.asks
  let entry (i : Nat) (name : String) : Producer := ⟨name, s, replay'[i]?⟩
  have hall : Activation.asks env s ⟨u, ⟨kind, replay'⟩ :: below, subroutines, saved⟩ =
      before ++ [name] := hasks
  have hle : book.length ≤ (before.mapIdx entry).length := by
    rw [results.length, List.length_mapIdx, hbefore]
    exact stops.grown.length_le
  have hgrown := h.grow stops.grown
  -- behind the calls that have a result comes the one that the function runs for
  have hlast : entry before.length name = ⟨name, s, none⟩ := by
    show Producer.mk name s replay'[before.length]? = _
    rw [hbefore, List.getElem?_eq_none (Nat.le_refl _)]
  have hentries : (before ++ [name]).mapIdx entry =
      before.mapIdx entry ++ [⟨name, s, none⟩] := by
    rw [List.mapIdx_concat, hlast]
  have hmade :
      book ++ Activation.made env s ⟨u, ⟨kind, replay'⟩ :: below, subroutines, saved⟩
      book.length = (book ++ (before.mapIdx entry).drop book.length) ++ [⟨name, s, none⟩] := by
    rw [List.append_assoc, ← List.drop_append_of_le_length hle, ← hentries, ← hall]
    rfl
  refine ⟨_, hmade, results.made stops.grown hbefore, hgrown.behind, ?_⟩
  intro i p hp
  by_cases hi : i < book.length
  · rw [List.append_assoc, List.getElem?_append_left hi] at hp
    exact hgrown.reached i p hp
  · -- a new call is the one that is reached at its place now
    have hle' : book.length ≤ i := Nat.le_of_not_lt hi
    rw [List.append_assoc, ← List.drop_append_of_le_length hle, ← hentries,
      List.getElem?_append_right hle', List.getElem?_drop, Nat.add_sub_cancel' hle',
      List.getElem?_mapIdx] at hp
    obtain ⟨n, hn, rfl⟩ := Option.map_eq_some_iff.mp hp
    rw [hall]
    exact hn

end

end Page

namespace Waiting

variable {u : CodeUnit} {callers : List Activation}

theorem length (h : Waiting env u callers books) : books.length = callers.length := by
  induction h with
  | bottom => rfl
  | caller _ _ _ _ ih => simp [ih]

theorem behind (h : Waiting env u callers books) : ∀ act ∈ callers, act.Behind := by
  induction h with
  | bottom => exact nofun
  | caller page _ _ _ ih => exact List.forall_mem_cons.mpr ⟨page.behind, ih⟩

theorem drop {act : Activation} {inner : List Activation}
    (h : Waiting env u (inner ++ act :: callers) books) :
    ∃ book older, books.drop inner.length = book :: older ∧
      Waiting env act.unit callers older := by
  induction inner generalizing u books with
  | nil =>
    cases h with
    | caller _ _ _ rest => exact ⟨_, _, rfl, rest⟩
  | cons top inner ih =>
    cases h with
    | caller _ _ _ rest => exact ih rest

/-- The value of a function is the result of the call that its caller waits for. It is put at the
end of the list, and the call without a result is the last of the book, so the two meet. -/
theorem back (h : Waiting env u callers books) (v : Value) :
    Balanced env (Activation.mapFrame (fun f => { f with replay := f.replay ++ [v] }) callers)
      (answered (some v) books) := by
  cases h with
  | bottom => exact .ended
  | @caller act book p callers older page results unanswered rest =>
    obtain ⟨u, frames, subroutines, saved⟩ := act
    cases frames with
    | nil =>
      -- a unit at its end has made no call that it could wait for
      have hempty := page.nothing rfl
      simp at hempty
    | cons f below =>
      obtain ⟨kind, replay⟩ := f
      rw [answered, List.modifyLast_concat]
      exact .front ((page.grow (List.prefix_append replay [v])).answer _) (results.concat rfl) rest

end Waiting

namespace Balanced

variable {acts : List Activation}

theorem length (h : Balanced env acts books) : books.length = acts.length := by
  cases h with
  | ended => rfl
  | front _ _ waiting => simp [waiting.length]

theorem behind (h : Balanced env acts books) : ∀ act ∈ acts, act.Behind := by
  cases h with
  | ended => exact nofun
  | front page _ waiting => exact List.forall_mem_cons.mpr ⟨page.behind, waiting.behind⟩

theorem nothing (h : Balanced env acts books) {act : Activation} {callers : List Activation}
    (hacts : acts = act :: callers) (hnothing : act.evaluation env.program = .nothing) :
    act.replay = [] := by
  cases h with
  | ended => cases hacts
  | front page results _ =>
    cases hacts
    rw [page.nothing hnothing] at results
    exact List.eq_nil_of_length_eq_zero results.length.symm

theorem drop {inner callers : List Activation} {act : Activation}
    (h : Balanced env (inner ++ act :: callers) books) :
    ∃ book older, books.drop inner.length = book :: older ∧
      Waiting env act.unit callers older := by
  cases inner with
  | nil =>
    cases h with
    | front _ _ waiting => exact ⟨_, _, rfl, waiting⟩
  | cons top inner =>
    cases h with
    | front _ _ waiting => exact waiting.drop

/-- **A micro-step keeps the books balanced.** The cases are those of `Replays`: a book grows where
an evaluation stops, gets a value where a function returns, and is closed in all other cases. -/
theorem tick (h : Balanced env m.activations books) (sound : (m.tick env).1 ≠ .defect) :
    Balanced env (m.tick env).2.activations (m.audit env books) := by
  have hreplays := tick_replays h.behind (fun _ _ => h.nothing) sound
  have hlength := h.length
  unfold audit
  generalize (m.tick env).2.activations = acts at hreplays ⊢
  cases hreplays with
  | ended =>
    rw [rebook_over hlength]
    exact .ended
  | @settles act callers acts front going settles =>
    rw [front] at h
    cases h with
    | front _ _ waiting =>
      cases settles with
      | ended =>
        rw [rebook_over hlength]
        exact .ended
      | @idle act' unit idle =>
        have hsame : (act' :: callers).length + 0 = m.activations.length := by rw [front]; rfl
        rw [rebook_ended hsame (.inl rfl)]
        exact .front (.idle idle) (idle.replay ▸ .nil) (unit ▸ waiting)
      | @back name unit v value =>
        have hback : (Activation.mapFrame (fun f => { f with replay := f.replay ++ [v] })
            callers).length = callers.length := by
          unfold Activation.mapFrame
          split <;> rfl
        rw [rebook_returned (by rw [hback, front]; rfl) going, value]
        exact waiting.back v
  | call front stops shadowed =>
    rw [front] at h
    cases h with
    | front page results waiting =>
      obtain ⟨made, hmade, hresults, hpage⟩ := page.call results stops
      rw [rebook_called (by simp [front]), entered, hmade]
      exact .front (.idle (.new _ _)) .nil (.caller hpage hresults rfl waiting)
  -- a fault leaves units and comes to a handler, which starts without results and with an empty
  -- book
  | @caught inner callers act act' found failed unit idle =>
    rw [found] at h
    obtain ⟨book, older, hdrop, waiting⟩ := h.drop
    have hmany : (act' :: callers).length + inner.length = m.activations.length := by
      simp only [found, List.length_append, List.length_cons]
      omega
    rw [rebook_ended hmany (.inr failed), hdrop]
    exact .front (.idle idle) (idle.replay ▸ .nil) (unit ▸ waiting)

end Balanced

theorem Audited.balanced (linked : env.program.Linked) (h : Audited env m books) :
    Balanced env m.activations books := by
  induction h with
  | new scope world => exact .front (.idle (.new _ _)) .nil .bottom
  | tick h ih => exact ih.tick (tick_ne_defect linked h.placed)
  | own _ kept ih => exact kept ▸ ih

/-! ## Whose result a call takes -/

/-- **A result that is taken from the list is the value of a call of the same execution**, and of
one with the same name unless a variable that decides on the calls has changed since. The call that
a function runs for is the last one in the book of its caller, and has no value yet. -/
theorem results_owned {script : Block} (hprogram : env.program = Program.link script)
    (h : Audited env m books) {act : Activation} {callers : List Activation}
    (front : m.activations = act :: callers) :
    ∃ book older, books = book :: older ∧ book.length = act.replay.length ∧
      (∀ name, act.unit = .function name →
        ∃ made p rest, older = (made ++ [p]) :: rest ∧ p.name = name ∧ p.result = none) ∧
      ∀ (i : Nat) (v : Value), act.replay[i]? = some v → ∃ p, book[i]? = some p ∧
        p.result = some v ∧ (act.asks env p.scope)[i]? = some p.name ∧
        ∀ name, (act.asks env m.scope)[i]? = some name →
          Scope.AgreeOn (act.evaluation env.program).deciders p.scope m.scope →
            p.name = name := by
  have linked : env.program.Linked := hprogram ▸ Program.linked_link script
  have hbalanced := h.balanced linked
  rw [front] at hbalanced
  cases hbalanced with
  -- the book of the front unit, that its results are those of the list, and who waits for the unit
  | @front _ book _ older page results waiting =>
    refine ⟨book, older, rfl, results.length, ?_, ?_⟩
    · intro name hunit
      rw [hunit] at waiting
      cases waiting with
      | @caller _ made p _ rest _ _ unanswered _ => exact ⟨made, p, rest, rfl, rfl, unanswered⟩
    · intro i v hv
      obtain ⟨hi, -⟩ := List.getElem?_eq_some_iff.mp hv
      have hbook : i < book.length := results.length ▸ hi
      have hp := List.getElem?_eq_getElem hbook
      refine ⟨book[i], hp, (results.result hp).trans hv, page.reached i _ hp, ?_⟩
      intro name hname hagree
      -- the name was reached with the scope at the call, and is the same in scopes that agree
      exact Evaluation.same_name hagree (page.reached i _ hp) hname

/-- The books behind a number of micro-steps. -/
def audits (env : Setting σ) : Nat → Machine σ → List (List Producer) → List (List Producer)
  | 0, _, books => books
  | n + 1, m, books => audits env n (m.tick env).2 (m.audit env books)

theorem Audited.ticks (h : Audited env m books) (n : Nat) :
    Audited env (m.ticks env n) (m.audits env n books) := by
  induction n generalizing m books with
  | zero => exact h
  | succ n ih => exact ih h.tick

/-- A function, and behind it a call that its value decides on. -/
def steady : Block :=
  .mk
    [.function "f" [] (.mk [.ret (some (.bool true 2)) 2] 1 3) 1,
      .assign [.var "x" 4] .set
        [.binary (.call "f" [] 4) .and (.call "len" [.string "abc" 4] 4) 4] 4]
    0 5

/-- Behind its return the value of the function goes to the call of the function, and is the one
that the book has for it. -/
theorem results_owned_steady :
    let env : Setting Unit := ⟨Program.link steady, .default, .null ""⟩
    let start : Machine Unit := Machine.new (.ofInputs []) ()
    let m := start.ticks env 3
    let books := start.audits env 3 [[]]
    Audited env m books ∧
    ∃ act callers book older p, m.activations = act :: callers ∧ books = book :: older ∧
      act.replay.map Value.isTruthy = [true] ∧ (act.asks env m.scope) = ["f", "len"] ∧
      book[0]? = some p ∧ p.name = "f" ∧ p.result = act.replay[0]? := by
  intro env start m books
  have haudited : Audited env m books := (Audited.new _ ()).ticks 3
  have hseen : m.activations.map (fun act => (act.replay.map Value.isTruthy, act.asks env m.scope,
      (act.evaluation env.program).deciders)) = [([true], ["f", "len"], [])] := by
    decide +kernel
  rcases hm : m.activations with _ | ⟨act, callers⟩
  · rw [hm] at hseen
    cases hseen
  · rw [hm] at hseen
    simp only [List.map_cons, List.cons.injEq, Prod.mk.injEq] at hseen
    obtain ⟨⟨hreplay, hasks, hdeciders⟩, -⟩ := hseen
    obtain ⟨book, older, hbooks, -, -, howned⟩ := results_owned rfl haudited hm
    have hlength : act.replay.length = 1 := by simpa using congrArg List.length hreplay
    have hfirst := List.getElem?_eq_getElem (hlength ▸ Nat.one_pos : 0 < act.replay.length)
    obtain ⟨p, hp, hresult, -, hname⟩ := howned 0 _ hfirst
    have hagree : Scope.AgreeOn (act.evaluation env.program).deciders p.scope m.scope := by
      rw [hdeciders]
      exact nofun
    exact ⟨haudited, act, callers, book, older, p, rfl, hbooks, hreplay, hasks, hp,
      hname "f" (by rw [hasks]; rfl) hagree, hresult.trans hfirst.symm⟩

/-- A function that changes what its caller has decided on. -/
def crossing : Block :=
  .mk
    [.function "f" []
        (.mk [.assign [.var "flag" 2] .set [.bool true 2] 2, .ret (some (.bool false 3)) 3] 1 4) 1,
      .assign [.var "flag" 5] .set [.bool false 5] 5,
      .assign [.var "x" 6] .set
        [.binary (.binary (.var "flag" 6) .and (.call "len" [.string "abc" 6] 6) 6) .or
          (.call "f" [] 6) 6] 6]
    0 7

/-- **The value of one call is taken by another**: the book has a call of the function and no other,
and its value goes to the length of a text. The function is then called once more. -/
theorem result_misplaced :
    let env : Setting Unit := ⟨Program.link crossing, .default, .null ""⟩
    let start : Machine Unit := Machine.new (.ofInputs []) ()
    let m := start.ticks env 5
    let books := start.audits env 5 [[]]
    Audited env m books ∧
      books.map (List.map fun p => (p.name, p.result.map Value.isTruthy)) =
        [[("f", some false)]] ∧
      m.activations.map (fun act => (act.replay.length, act.asks env m.scope)) =
        [(1, ["len", "f"])] ∧
      (m.ticks env 1).activations.map Activation.unit = [.function "f", .main] := by
  intro env start m books
  refine ⟨(Audited.new _ ()).ticks 5, ?_⟩
  decide +kernel

end Machine

end Stepwise
