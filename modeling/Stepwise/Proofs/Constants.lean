import Stepwise.Program.Link
import Stepwise.Proofs.Assoc
import Stepwise.Proofs.Reachable
import Stepwise.Proofs.ScopeMoves

/-!
# Constants

A constant refuses to be set, changed or dropped, and its name refuses to be a parameter, so it
keeps its value whatever a script and its owner do, with one exception. A function that is left puts
back what its parameters shadow, and does not ask. So **a constant has the value it was frozen with,
but for what functions that ran at that moment have put back since** (`constants_kept`). Only a
parameter that is frozen while its function runs can change, or lose its value altogether
(`parameter_thawed`).

## How the argument goes

A run is seen through its scope and through what the running functions have put aside, and what it
does to the two is a chain of `ScopeMove`s. `Lasts` says of a state of both what has become of a
constant since an earlier state; it is shown for one kind of move after the other (`Lasts.move`) and
then for chains.

Where the chain starts is not given. That a name is a constant now says only that it was frozen at
some time, because no scope starts with constants. `exists_crossing` finds the act in which it
happened and then the move within that act; only a declaration of a constant makes one
(`ScopeMove.eq_frozen`), so the value at that moment is the one declared.

The name of the message that a failure leaves behind is excluded throughout. Failures write it
without asking, so as a constant it would not last.
-/

namespace Stepwise

open Relation

/-! ## Reading a scope

What the operations of a scope leave under one name. Binding refuses on constants, but putting back
does not: `restoreAll` writes over whatever is there. -/

theorem Assoc.get?_erase {α : Type} (k key : String) (m : Assoc α) :
    get? k (erase key m) = if key = k then none else get? k m := by
  induction m with
  | nil => simp [erase, get?]
  | cons entry rest ih =>
    obtain ⟨first, a⟩ := entry
    unfold erase at ih ⊢
    by_cases hfirst : first = key
    · subst hfirst
      rw [List.filter_cons_of_neg (by simp), ih]
      split
      · rfl
      · rename_i hk
        simp only [get?, if_neg hk]
    · rw [List.filter_cons_of_pos (by simpa using hfirst)]
      simp only [get?, ih]
      by_cases hk : first = k
      · subst hk
        simp [Ne.symm hfirst]
      · simp [hk]

namespace Scope

variable {s s' : Scope} {n : String}

theorem get?_force (s : Scope) (name : String) (v : Value) (n : String) :
    (s.force name v).get? n = if name = n then some v else s.get? n :=
  Assoc.get?_put n name v s.vars

/-- Putting back a name that had no value takes its value away. So a parameter that shadowed nothing
is gone behind the function, even if it is a constant by then. -/
theorem get?_restore (s : Scope) (name : String) (previous : Option Value) (n : String) :
    (s.restore name previous).get? n = if name = n then previous else s.get? n := by
  cases previous with
  | some v => exact get?_force s name v n
  | none => exact Assoc.get?_erase n name s.vars

/-- Values are put back, and constants stay constants: there is no way back from being one. The two
can come apart this way, and a name be a constant without a value. -/
theorem isConst_restoreAll (s : Scope) (saved : List (String × Option Value)) (n : String) :
    (s.restoreAll saved).isConst n = s.isConst n := by
  unfold restoreAll
  induction saved generalizing s with
  | nil => rfl
  | cons entry rest ih =>
    rw [List.foldl_cons, ih]
    obtain ⟨name, previous⟩ := entry
    cases previous <;> rfl

theorem restoreAll_append (s : Scope) (saved saved' : List (String × Option Value)) :
    s.restoreAll (saved ++ saved') = (s.restoreAll saved).restoreAll saved' :=
  List.foldl_append

/-- What is put back for a name does not depend on the others. -/
theorem get?_restoreAll_congr (h : s.get? n = s'.get? n) (saved : List (String × Option Value)) :
    (s.restoreAll saved).get? n = (s'.restoreAll saved).get? n := by
  unfold restoreAll
  induction saved generalizing s s' with
  | nil => exact h
  | cons entry rest ih =>
    rw [List.foldl_cons, List.foldl_cons]
    apply ih
    rw [get?_restore, get?_restore, h]

theorem get?_restoreAll_of_ne {saved : List (String × Option Value)}
    (h : ∀ entry ∈ saved, entry.1 ≠ n) : (s.restoreAll saved).get? n = s.get? n := by
  unfold restoreAll
  induction saved generalizing s with
  | nil => rfl
  | cons entry rest ih =>
    rw [List.foldl_cons, ih fun entry hentry => h entry (List.mem_cons_of_mem _ hentry)]
    rw [get?_restore, if_neg (h entry List.mem_cons_self)]

theorem ne_of_const {name : String} (const : s.isConst n = true) (free : s.isConst name = false) :
    name ≠ n := by
  rintro rfl
  rw [const] at free
  cases free

theorem contains_iff : s.contains n = true ↔ ∃ v, s.get? n = some v := Option.isSome_iff_exists

def frozen (s : Scope) (name : String) : Scope := { s with constants := s.constants ++ [name] }

end Scope

/-- Binding parameters makes no constants, and a refusal half-way gives none up: the parameters that
were bound before it are put back, which is a matter of values. -/
theorem isConst_bindParams {s s' : Scope} {saved : List (String × Option Value)}
    {params : List (String × Value)} {r : Except Fault (List (String × Option Value))}
    (h : Machine.bindParams s saved params = (r, s')) (n : String) :
    s'.isConst n = s.isConst n := by
  induction params generalizing s saved with
  | nil =>
    cases h
    rfl
  | cons pair rest ih =>
    obtain ⟨param, arg⟩ := pair
    unfold Machine.bindParams at h
    dsimp only at h
    by_cases hparam : s.isConst param = true
    · rw [Scope.set, if_pos hparam] at h
      cases h
      exact Scope.isConst_restoreAll s saved n
    · rw [Scope.set, if_neg hparam] at h
      have hrest : Machine.bindParams (s.force param arg) ((param, s.get? param) :: saved) rest =
          (r, s') := h
      have hkept := ih hrest
      exact hkept

/-- A constant is no parameter: binding parameters does not touch it and puts nothing aside for
it. -/
theorem bindParams_const {s s' : Scope} {n : String} {saved : List (String × Option Value)}
    {params : List (String × Value)} {r : Except Fault (List (String × Option Value))}
    (h : Machine.bindParams s saved params = (r, s')) (const : s.isConst n = true)
    (hsaved : ∀ entry ∈ saved, entry.1 ≠ n) :
    s'.get? n = s.get? n ∧ ∀ saved', r = .ok saved' →
      ∀ entry ∈ saved', entry.1 ≠ n := by
  induction params generalizing s saved with
  | nil =>
    cases h
    refine ⟨rfl, ?_⟩
    rintro saved' ⟨⟩
    exact hsaved
  | cons pair rest ih =>
    obtain ⟨param, arg⟩ := pair
    unfold Machine.bindParams at h
    dsimp only at h
    by_cases hparam : s.isConst param = true
    · rw [Scope.set, if_pos hparam] at h
      cases h
      exact ⟨Scope.get?_restoreAll_of_ne hsaved, nofun⟩
    · rw [Scope.set, if_neg hparam] at h
      have hne : param ≠ n := Scope.ne_of_const const (Bool.not_eq_true _ ▸ hparam)
      obtain ⟨hget, hok⟩ := ih h const (List.forall_mem_cons.mpr ⟨hne, hsaved⟩)
      refine ⟨hget.trans ?_, hok⟩
      rw [Scope.get?_force, if_neg hne]

/-! ## A constant along the moves of its scope -/

/-- What has become of a constant. Of the bindings that were put aside, those of the innermost
functions were put back since (`left`), others are still aside (`kept`), and some may be lost to the
end of the run (`lost`); they stand in this order because the innermost function is left first.
Functions entered since (`fresh`) have put aside nothing for the name. -/
structure Lasts (n : String) (p₀ p : Scope × Shadows) : Prop where
  const : p.1.isConst n = true
  aside : ∃ fresh left kept lost : Shadows, p₀.2 = left ++ kept ++ lost ∧
    p.2 = fresh ++ kept ∧
    (∀ entry ∈ fresh.flatten, entry.1 ≠ n) ∧
      p.1.get? n = (p₀.1.restoreAll left.flatten).get? n

namespace Lasts

variable {n : String} {p₀ p p' : Scope × Shadows}

theorem refl (const : p.1.isConst n = true) : Lasts n p p :=
  ⟨const, [], [], p.2, [], by simp, rfl, by simp, rfl⟩

/-- A move that leaves the name and the functions alone. Most moves are of this kind, and what is
known of the constant carries over as it is. -/
theorem same (h : Lasts n p₀ p) (hconst : p'.1.isConst n = true) (haside : p'.2 = p.2)
    (hget : p'.1.get? n = p.1.get? n) : Lasts n p₀ p' := by
  obtain ⟨fresh, left, kept, lost, h₀, hp, hfresh, hvalue⟩ := h.aside
  exact ⟨hconst, fresh, left, kept, lost, h₀, haside.trans hp, hfresh, hget.trans hvalue⟩

/-- One move. All but three leave the name and the functions alone: constants refuse, other names do
not matter, and a new constant is not this one. Entering a function puts aside one more list,
without the name in it. Leaving one is where a value can change. -/
theorem move (h : Lasts n p₀ p) (hn : n ≠ Scope.exceptionMessage) (move : ScopeMove p p') :
    Lasts n p₀ p' := by
  have const := h.const
  cases move with
  | @bind s name free v aside =>
    refine h.same const rfl ?_
    rw [Scope.get?_force, if_neg (Scope.ne_of_const const free)]
  | note s f aside =>
    refine h.same const rfl ?_
    rw [Scope.noteFailure, Scope.get?_force, if_neg hn.symm]
  | @freeze s name bound free aside =>
    refine h.same ?_ rfl rfl
    simp only [Scope.isConst, List.contains_eq_mem, decide_eq_true_eq] at const ⊢
    exact List.mem_append_left _ const
  | declareWeb s name signature aside => exact h.same const rfl rfl
  | @unbind s name free aside =>
    refine h.same const rfl ?_
    exact (Assoc.get?_erase n name s.vars).trans (if_neg (Scope.ne_of_const const free))
  | @enter s s' params saved bound aside =>
    have hconst : s'.isConst n = true := (isConst_bindParams bound n).trans const
    obtain ⟨hget, hsaved⟩ := bindParams_const bound const nofun
    obtain ⟨fresh, left, kept, lost, h₀, hp, hfresh, hvalue⟩ := h.aside
    have hp' : aside = fresh ++ kept := hp
    refine ⟨hconst, saved :: fresh, left, kept, lost, h₀, ?_, ?_, hget.trans hvalue⟩
    · rw [hp', List.cons_append]
    · intro entry hentry
      rw [List.flatten_cons] at hentry
      rcases List.mem_append.mp hentry with hentry | hentry
      · exact hsaved saved rfl entry hentry
      · exact hfresh entry hentry
  | @refuse s s' params f refused aside =>
    obtain ⟨hget, -⟩ := bindParams_const refused const nofun
    exact h.same ((isConst_bindParams refused n).trans const) rfl hget
  | leave s saved aside =>
    have hconst : (s.restoreAll saved).isConst n = true := by rw [Scope.isConst_restoreAll, const]
    obtain ⟨fresh, left, kept, lost, h₀, hp, hfresh, hvalue⟩ := h.aside
    rcases fresh with _ | ⟨newest, fresh⟩
    · -- a function is left that ran at the start, so what it puts back may be for the name
      obtain rfl : kept = saved :: aside := hp.symm
      refine ⟨hconst, [], left ++ [saved], aside, lost, ?_, rfl, by simp, ?_⟩
      · rw [h₀]
        simp
      · rw [List.flatten_append, List.flatten_singleton, Scope.restoreAll_append]
        exact Scope.get?_restoreAll_congr hvalue saved
    -- this one was entered since, and its parameters do not have the name
    · obtain ⟨rfl, rfl⟩ : saved = newest ∧ aside = fresh ++ kept := List.cons_eq_cons.mp hp
      refine ⟨hconst, fresh, left, kept, lost, h₀, rfl, ?_, ?_⟩
      · intro entry hentry
        exact hfresh entry (List.mem_append_right _ hentry)
      · refine Eq.trans ?_ hvalue
        apply Scope.get?_restoreAll_of_ne
        intro entry hentry
        exact hfresh entry (List.mem_append_left _ hentry)
  | ended s aside =>
    obtain ⟨fresh, left, kept, lost, h₀, hp, hfresh, hvalue⟩ := h.aside
    -- the frames are dropped without anything put back, so all that was kept is lost
    refine ⟨const, [], left, [], kept ++ lost, ?_, rfl, by simp, hvalue⟩
    rw [h₀, List.append_nil, List.append_assoc]

theorem moves (h : Lasts n p₀ p) (hn : n ≠ Scope.exceptionMessage)
    (hmoves : ReflTransGen ScopeMove p p') : Lasts n p₀ p' := by
  induction hmoves with
  | refl => exact h
  | tail _ hmove ih => exact ih.move hn hmove

end Lasts

/-- Only one kind of move makes a constant, and it asks for a value to freeze. So at the moment at
which a name becomes a constant it has a value, whatever becomes of that later. -/
theorem ScopeMove.eq_frozen {n : String} {p p' : Scope × Shadows} (h : ScopeMove p p')
    (free : p.1.isConst n = false) (const : p'.1.isConst n = true) :
    p.1.contains n = true ∧ p' = (p.1.frozen n, p.2) := by
  have absent : p.1.isConst n ≠ true := by simp [free]
  cases h with
  | bind => exact absurd const absent
  | note => exact absurd const absent
  | @freeze s name bound hfree aside =>
    simp only [Scope.isConst, List.contains_eq_mem, ne_eq, decide_eq_true_eq] at const absent
    rcases List.mem_append.mp const with hmem | hmem
    · exact absurd hmem absent
    · obtain rfl := List.mem_singleton.mp hmem
      exact ⟨bound, rfl⟩
  | declareWeb => exact absurd const absent
  | unbind => exact absurd const absent
  | enter bound => exact absurd ((isConst_bindParams bound n).symm.trans const) absent
  | refuse refused => exact absurd ((isConst_bindParams refused n).symm.trans const) absent
  | leave s saved => exact absurd ((Scope.isConst_restoreAll s saved n).symm.trans const) absent
  | ended => exact absurd const absent

/-- A chain that comes to have a property comes to it in one step. It is used on two levels, for the
acts of a run and for the moves within one act. -/
theorem exists_crossing {α : Type} {r : α → α → Prop} {P : α → Prop} {a b : α}
    (h : ReflTransGen r a b) (ha : ¬ P a) (hb : P b) :
    ∃ c d, ReflTransGen r a c ∧ ¬ P c ∧ r c d ∧ P d ∧ ReflTransGen r d b := by
  induction h with
  | refl => exact absurd hb ha
  | @tail c b hac hcb ih =>
    by_cases hc : P c
    · obtain ⟨d, e, had, hd, hde, he, hec⟩ := ih hc
      exact ⟨d, e, had, hd, hde, he, hec.tail hcb⟩
    · exact ⟨c, b, hac, hc, hcb, hb, .refl⟩

/-! ## A constant along a run -/

/-- All that an owner can do to a scope is made of moves. The bindings that functions have put aside
are not within reach of an owner, so they stay. -/
theorem Scope.Operates.moves {s s' : Scope} (h : s.Operates s') (aside : Shadows) :
    ReflTransGen ScopeMove (s, aside) (s', aside) := by
  cases h with
  | set h => exact Scope.Written.set h _
  | update h v => exact Scope.Written.force (Scope.free_of_updatable h) v _
  | declareConst h => exact Scope.Written.declareConst h _
  | declareWeb name signature => exact Scope.Written.declareWeb _ name signature _
  | remove name =>
    by_cases hconst : s.isConst name = true
    · rw [Scope.remove, if_pos hconst]
    · rw [Scope.remove, if_neg hconst]
      exact .single (.unbind (Bool.not_eq_true _ ▸ hconst) _)

namespace Machine

variable {σ : Type} {env : Setting σ} {m m' : Machine σ}

theorem Acts.moves (h : Acts env m m') :
    ReflTransGen ScopeMove (m.scope, m.shadows) (m'.scope, m'.shadows) := by
  cases h with
  | tick => exact (Touches.tick env m).moves
  | finish => exact .refl
  | handled h =>
    cases h with
    | takeDelay => exact .refl
    | resume => exact .refl
    | cancel => exact .refl
    | operate h => exact h.moves _

/-- A run is a chain of moves of its scope. From here on nothing is asked of the machine but its
scope and its frames. -/
theorem moves_of_acts (h : ReflTransGen (Acts env) m m') :
    ReflTransGen ScopeMove (m.scope, m.shadows) (m'.scope, m'.shadows) := by
  induction h with
  | refl => exact .refl
  | tail _ hact ih => exact ih.trans hact.moves

/-- Between two moments a name is frozen in the scope `s`, while the running units have put these
bindings aside. One act may do several moves, so the scope in which it happens need not be that of
either moment. -/
structure Freezes (env : Setting σ) (n : String) (s : Scope) (aside : Shadows)
    (before after : Machine σ) : Prop where
  acts : Acts env before after
  earlier : ReflTransGen ScopeMove (before.scope, before.shadows) (s, aside)
  free : s.isConst n = false
  later : ReflTransGen ScopeMove (s.frozen n, aside) (after.scope, after.shadows)

/-- **A constant keeps the value it was frozen with**, unless it was a parameter. Its value is that
of the moment at which it was frozen, once the functions that were left since have put back what
they had put aside at that moment. If none of them had the name as a parameter, it is the value `v`
that was there when it was frozen. -/
theorem constants_kept (env : Setting σ) (inputs : Assoc Value) (world : σ) {n : String}
    (run : ReflTransGen (Acts env) (Machine.new (.ofInputs inputs) world) m)
    (const : m.scope.isConst n = true) (hn : n ≠ Scope.exceptionMessage) :
    ∃ before after s v fresh left kept lost,
      ReflTransGen (Acts env) (Machine.new (.ofInputs inputs) world) before ∧
      Freezes env n s (left ++ kept ++ lost) before after ∧ s.get? n = some v ∧
      ReflTransGen (Acts env) after m ∧ m.shadows = fresh ++ kept ∧
      (∀ entry ∈ fresh.flatten, entry.1 ≠ n) ∧
        m.scope.get? n = (s.restoreAll left.flatten).get? n ∧
      ((∀ entry ∈ left.flatten, entry.1 ≠ n) → m.scope.get? n = some v) := by
  -- the moment at which the name became a constant, first among the acts and then within one
  obtain ⟨before, after, hbefore, hfree, hact, hconst, hafter⟩ :=
    exists_crossing (P := fun m => m.scope.isConst n = true) run nofun const
  obtain ⟨⟨s, aside⟩, p, hearlier, hs, hmove, hp, hlater⟩ :=
    exists_crossing (P := fun p : Scope × Shadows => p.1.isConst n = true) hact.moves hfree hconst
  obtain ⟨hbound, rfl⟩ := hmove.eq_frozen (Bool.not_eq_true _ ▸ hs) hp
  obtain ⟨v, hv⟩ := Scope.contains_iff.mp hbound
  obtain ⟨-, fresh, left, kept, lost, haside, hshadows, hfresh, hget⟩ :=
    (Lasts.refl hp).moves hn (hlater.trans (moves_of_acts hafter))
  have haside' : aside = left ++ kept ++ lost := haside
  subst haside'
  have hvalue : m.scope.get? n = (s.restoreAll left.flatten).get? n := by
    rw [hget]
    have hsame : (s.frozen n).get? n = s.get? n := rfl
    exact Scope.get?_restoreAll_congr hsame _
  refine ⟨before, after, s, v, fresh, left, kept, lost, hbefore,
    ⟨hact, hearlier, Bool.not_eq_true _ ▸ hs, hlater⟩, hv, hafter, hshadows, hfresh,
    hvalue, ?_⟩
  intro hleft
  rw [hvalue, Scope.get?_restoreAll_of_ne hleft, hv]

/-- A function freezes its own parameter, whose name is also that of a variable. When the function
is left, the variable comes back under a name that is a constant by now. -/
def thawing : Block :=
  .mk
    [.function "f" ["p"] (.mk [.const [⟨"p", .bool true 2⟩] 2] 1 3) 1,
      .assign [.var "p" 4] .set [.bool false 4] 4,
      .call "f" [.null 5] 5]
    0 6

/-- The variable is put back under the constant: true when it was frozen, false behind the call. -/
theorem parameter_thawed :
    let env : Setting Unit := ⟨Program.link thawing, .default, .null ""⟩
    let m := (Machine.new (.ofInputs []) ()).ticks env 4
    let m' := m.ticks env 2
    m.scope.isConst "p" = true ∧ (m.scope.get? "p").map Value.isTruthy = some true ∧
      m'.scope.isConst "p" = true ∧ (m'.scope.get? "p").map Value.isTruthy = some false := by
  decide +kernel

/-- Behind the call the function that was left has put back the variable. -/
theorem constants_kept_thawing :
    let env : Setting Unit := ⟨Program.link thawing, .default, .null ""⟩
    let start : Machine Unit := Machine.new (.ofInputs []) ()
    let m := start.ticks env 6
    m.scope.isConst "p" = true ∧
    ∃ before after s v fresh left kept lost,
      ReflTransGen (Acts env) start before ∧
      Freezes env "p" s (left ++ kept ++ lost) before after ∧ s.get? "p" = some v ∧
      ReflTransGen (Acts env) after m ∧ m.shadows = fresh ++ kept ∧
      (∀ entry ∈ fresh.flatten, entry.1 ≠ "p") ∧
        m.scope.get? "p" = (s.restoreAll left.flatten).get? "p" ∧
      ((∀ entry ∈ left.flatten, entry.1 ≠ "p") → m.scope.get? "p" = some v) := by
  intro env start m
  have hconst : m.scope.isConst "p" = true := by decide +kernel
  exact ⟨hconst, constants_kept env [] () (ticks_acts env 6 start) hconst (by decide)⟩

end Machine

end Stepwise
