import Stepwise.Proofs.Lens

/-!
# Assignments that fail

A write that is refused by something that was there already changes nothing. One that goes on from a
place where nothing is, or a null, first makes a container there; a struct takes every field, but an
empty array takes only the index 0. So **a failed assignment leaves the scope as it was, unless the
path asks a fresh array for another index than 0: then the fault is that the index is out of range,
and the fresh array, with all that was made on the way to it, stays** (`failed_bind`). No other
fault leaves anything behind. The shortest case is an index into a name that is not bound
(`failed_bind_leaves_root`).

## Places

A path is followed from a place, which may hold nothing. `setAt` writes from a place and `placeAt?`
looks, both along the same keys, and both step from a place into the `container` that it becomes.
The two agree about what is at a place except where it is blank: then looking finds nothing, and
writing finds a fresh container with nothing in it. That is the disjunction of `placeAt?_cons`, and
the induction over the path needs no more of it than that blank places correspond
(`blank_placeAt?_cons`).

What is left behind is not described by a construction of its own. It is what the same scope would
be after a successful assignment of an empty array, to the front part of the path.
-/

namespace Stepwise

namespace Value

/-! ## Looking up a path exactly -/

/-- What lies at the end of a path, indices taken as they are. Reading counts a negative index from
the end, and writing does not. -/
def childPath? : Value → List Key → Option Value
  | v, [] => some v
  | v, key :: rest => (v.child? key).bind fun part => part.childPath? rest

/-- What lies at the end of a path from a place that may be empty. -/
def placeAt? (place : Option Value) (keys : List Key) : Option Value :=
  place.bind fun v => v.childPath? keys

/-- Nothing is there, or a null: a container is made when it is written into. -/
def Blank (place : Option Value) : Prop :=
  place = none ∨ place = some .null

theorem Blank.placeAt? {place : Option Value} (h : Blank place) (key : Key) (rest : List Key) :
    Blank (placeAt? place (key :: rest)) := by
  obtain rfl | rfl := h
  · exact .inl rfl
  · exact .inl (by cases key <;> rfl)

/-! ## Fresh containers -/

/-- The container that a place becomes when a key is written into it. What is there and is no null
stays what it is, even if the key does not fit. -/
def container (place : Option Value) (key : Key) : Value :=
  (place.getD (emptyFor (some key))).opened key

theorem container_of_blank {place : Option Value} (h : Blank place) (key : Key) :
    container place key = emptyFor (some key) := by
  obtain rfl | rfl := h
  · cases key <;> rfl
  · rfl

theorem eq_container_of_not_blank {place : Option Value} (h : ¬ Blank place) (key : Key) :
    place = some (container place key) := by
  cases place with
  | none => exact absurd (.inl rfl) h
  | some v =>
    cases v with
    | null => exact absurd (.inr rfl) h
    | bool | num | str | array | struct | error => rfl

theorem child?_emptyFor (key : Key) : (emptyFor (some key)).child? key = none := by
  cases key with
  | field name => rfl
  | index i =>
    simp only [emptyFor, child?, List.getElem?_nil]
    split <;> rfl

/-- The one key that a fresh container refuses is an index other than zero. Index zero is the one
behind the last element of an empty array, and is appended. -/
theorem refusal_emptyFor {key : Key} {f : Fault} (h : (emptyFor (some key)).refusal key = some f) :
    ∃ i, key = .index i ∧ i ≠ 0 ∧ f = .indexOutOfRange i 0 := by
  cases key with
  | field name => cases h
  | index i =>
    simp only [emptyFor, refusal, List.length_nil] at h
    split at h
    · cases h
      exact ⟨i, rfl, by omega, rfl⟩
    · cases h

theorem refusal_emptyFor_index {i : Int} (h : i ≠ 0) :
    (emptyFor (some (.index i))).refusal (.index i) = some (.indexOutOfRange i 0) := by
  simp only [emptyFor, refusal, List.length_nil]
  rw [if_pos (by omega)]

/-- A path leads on from a place as it does from the container that the place becomes. -/
theorem placeAt?_cons (place : Option Value) (key : Key) (keys : List Key) :
    placeAt? ((container place key).child? key) keys = placeAt? place (key :: keys) ∨
      Blank place ∧ (container place key).child? key = none := by
  by_cases h : Blank place
  · rw [container_of_blank h, child?_emptyFor]
    exact .inr ⟨h, rfl⟩
  · have hplace := eq_container_of_not_blank h key
    refine .inl ?_
    conv => rhs; rw [hplace]
    rfl

/-- Writing comes to a blank place at the end of a path if looking does. -/
theorem blank_placeAt?_cons {place : Option Value} {key : Key} {keys : List Key} :
    Blank (placeAt? ((container place key).child? key) keys) ↔
      Blank (placeAt? place (key :: keys)) := by
  obtain heq | ⟨hblank, hnone⟩ := placeAt?_cons place key keys
  · rw [heq]
  · rw [hnone]
    exact Iff.intro (fun _ => hblank.placeAt? key keys) (fun _ => .inl rfl)

/-! ## Writing from a place -/

/-- Write along a path that starts at a place. -/
def setAt (place : Option Value) (v : Value) (keys : List Key) : Except Fault Unit × Value :=
  (slotFor place keys).setPath v keys

theorem setAt_of_refusal {place : Option Value} {key : Key} {rest : List Key} {f : Fault}
    (h : (container place key).refusal key = some f) (v : Value) :
    setAt place v (key :: rest) = (.error f, container place key) :=
  setPath_of_refusal h v rest

theorem setAt_of_takes {place : Option Value} {key : Key} {rest : List Key}
    (h : Takes (container place key) key) (v : Value) :
    setAt place v (key :: rest) =
      ((setAt ((container place key).child? key) v rest).1,
        (container place key).setChild key (setAt ((container place key).child? key) v rest).2) :=
  setPath_of_takes h v rest

/-- What was written is found at the end of the path, also where it leads through containers that
were made by the write. -/
theorem childPath?_setAt {place : Option Value} {v w : Value} {keys : List Key}
    (h : setAt place v keys = (.ok (), w)) : w.childPath? keys = some v := by
  induction keys generalizing place w with
  | nil =>
    cases h
    rfl
  | cons key rest ih =>
    have takes := takes_of_setPath h
    obtain ⟨part, hpart, rfl⟩ := setPath_cons_eq_ok h
    rw [childPath?, takes.child?_setChild, Option.bind_some]
    exact ih hpart

/-- Asking a fresh array for another index than zero fails, and leaves the array there. By induction
over the keys in front, which are taken as they are when the array itself is written. -/
theorem setAt_overshoot {place : Option Value} {w : Value} {front : List Key} {i : Int}
    (blank : Blank (placeAt? place front)) (made : setAt place (.array []) front = (.ok (), w))
    (hi : i ≠ 0) (v : Value) (rest : List Key) :
    setAt place v (front ++ .index i :: rest) = (.error (.indexOutOfRange i 0), w) := by
  induction front generalizing place w with
  | nil =>
    have hblank : Blank place := by simpa [placeAt?, childPath?] using blank
    have hfresh := container_of_blank hblank (.index i)
    have hrefusal : (container place (.index i)).refusal (.index i) =
        some (.indexOutOfRange i 0) := by
      rw [hfresh]
      exact refusal_emptyFor_index hi
    cases made
    rw [List.nil_append, setAt_of_refusal hrefusal, hfresh]
    rfl
  | cons key front ih =>
    have takes : Takes (container place key) key := takes_of_setPath made
    obtain ⟨part, hpart, rfl⟩ := setPath_cons_eq_ok made
    have hinner : setAt ((container place key).child? key) v (front ++ .index i :: rest) =
        (.error (.indexOutOfRange i 0), part) := ih (blank_placeAt?_cons.mpr blank) hpart
    rw [List.cons_append, setAt_of_takes takes, hinner]
    rfl

/-- A write that fails leaves the place as it was, or went on from a blank place to another index
than zero. -/
theorem setAt_eq_error {place : Option Value} {v w : Value} {keys : List Key} {f : Fault}
    (h : setAt place v keys = (.error f, w)) :
    place = some w ∨
      ∃ front i rest, keys = front ++ .index i :: rest ∧ i ≠ 0 ∧
        Blank (placeAt? place front) ∧ setAt place (.array []) front = (.ok (), w) := by
  induction keys generalizing place w with
  | nil => cases h
  | cons key rest ih =>
    cases hrefusal : (container place key).refusal key with
    | some f' =>
      rw [setAt_of_refusal hrefusal, Prod.mk.injEq] at h
      obtain ⟨-, rfl⟩ := h
      by_cases hblank : Blank place
      · rw [container_of_blank hblank] at hrefusal ⊢
        -- the refusal came from a container that was only just made
        obtain ⟨i, rfl, hi, -⟩ := refusal_emptyFor hrefusal
        refine .inr ⟨[], i, rest, rfl, hi, ?_, rfl⟩
        simpa [placeAt?, childPath?] using hblank
      · exact .inl (eq_container_of_not_blank hblank key)
    | none =>
      have takes := takes_of_refusal hrefusal
      rw [setAt_of_takes takes, Prod.mk.injEq] at h
      obtain ⟨hfst, rfl⟩ := h
      obtain hsame | ⟨front, i, rest', rfl, hi, hblank, hmade⟩ := ih (Prod.ext hfst rfl)
      · -- the part that was written into was there, so the container was
        have hnot : ¬ Blank place := by
          intro hblank
          rw [container_of_blank hblank, child?_emptyFor] at hsame
          cases hsame
        rw [takes.setChild_self hsame]
        exact .inl (eq_container_of_not_blank hnot key)
      · refine .inr ⟨key :: front, i, rest', rfl, hi, blank_placeAt?_cons.mp hblank, ?_⟩
        rw [setAt_of_takes takes, hmade]

end Value

namespace Target

open Value

/-! ## Failed assignments -/

/-- What lies at a target, indices taken as they are. -/
def find? (s : Scope) (t : Target) : Option Value :=
  placeAt? (s.get? t.root) t.keys

/-- The target goes on, from a place that is blank but could be an array, to an index other than
zero. That it could be one is said by writing one there: the way to the place may be refused
already, and then nothing is made. -/
structure Overshoots (s : Scope) (t : Target) (front : List Key) (i : Int) : Prop where
  keys : ∃ rest, t.keys = front ++ .index i :: rest
  index : i ≠ 0
  blank : Blank (find? s (path t.root front))
  made : (bind s [(path t.root front, .array [])]).1 = .ok ()

/-- A constant refuses before anything is made. All else goes to the root, also where it failed. -/
theorem bind_eq_error {s s' : Scope} {t : Target} {v : Value} {f : Fault}
    (h : bind s [(t, v)] = (.error f, s')) :
    s' = s ∨ s.isConst t.root = false ∧
      ∃ w, setAt (s.get? t.root) v t.keys = (.error f, w) ∧ s' = s.force t.root w := by
  rw [bind_single] at h
  cases hconst : s.isConst t.root with
  | true =>
    rw [write_of_const hconst] at h
    cases h
    exact .inl rfl
  | false =>
    rw [write_of_not_const hconst, Prod.mk.injEq] at h
    exact .inr ⟨rfl, _, Prod.ext h.1 rfl, h.2.symm⟩

/-- A failed assignment leaves the scope as it was, if its path does not overshoot a fresh array. If
it does, the index is out of range, and what is left is the scope with that fresh array in place,
which differs from the scope before. -/
theorem failed_bind {s s' : Scope} {t : Target} {v : Value} {f : Fault}
    (h : bind s [(t, v)] = (.error f, s')) :
    ((¬ ∃ front i, Overshoots s t front i) → s' = s) ∧
    ∀ front i, Overshoots s t front i →
      f = .indexOutOfRange i 0 ∧ bind s [(path t.root front, .array [])] = (.ok (), s') ∧
        s' ≠ s := by
  constructor
  · intro hnone
    obtain rfl | ⟨hconst, w, hset, rfl⟩ := bind_eq_error h
    · rfl
    obtain hsame | ⟨front, i, rest, hkeys, hi, hblank, hmade⟩ := setAt_eq_error hset
    · exact Scope.force_of_get? hsame
    · refine absurd ⟨front, i, ⟨rest, hkeys⟩, hi, hblank, ?_⟩ hnone
      rw [bind_single, write_of_not_const (t := path t.root front) hconst]
      exact congrArg (·.1) hmade
  · intro front i past
    obtain ⟨rest, hkeys⟩ := past.keys
    obtain ⟨made, hbind⟩ : ∃ made, bind s [(path t.root front, .array [])] = (.ok (), made) :=
      ⟨_, Prod.ext past.made rfl⟩
    obtain ⟨hconst, w, hw, rfl⟩ := bind_eq_ok hbind
    have hset := setAt_overshoot past.blank hw past.index v rest
    have hresult : bind s [(t, v)] = (.error (.indexOutOfRange i 0), s.force t.root w) := by
      rw [bind_single, write_of_not_const (t := t) hconst, hkeys]
      exact Prod.ext (congrArg (·.1) hset) (congrArg (fun r => s.force t.root r.2) hset)
    rw [hresult, Prod.mk.injEq] at h
    obtain ⟨hf, rfl⟩ := h
    refine ⟨(Except.error.inj hf).symm, hbind, ?_⟩
    -- the array is found afterwards at a place that was blank
    intro hsame
    have hroot : s.get? t.root = some w := by
      rw [← hsame]
      exact get?_force_root s t w
    have hfound : find? s (path t.root front) = some (.array []) := by
      rw [find?, placeAt?]
      show (s.get? t.root).bind _ = _
      rw [hroot]
      exact childPath?_setAt hw
    obtain hnone | hnull := past.blank
    · rw [hfound] at hnone
      cases hnone
    · rw [hfound] at hnull
      cases hnull

/-- A field that holds a null is asked for its third element: an empty array stays in its place. -/
theorem failed_bind_past_fresh_array :
    bind ⟨[("x", .struct [("a", .null)])], [], []⟩
      [(path "x" [.field "a", .index 2, .field "b"], .bool true)] =
      (.error (.indexOutOfRange 2 0), ⟨[("x", .struct [("a", .array [])])], [], []⟩) ∧
    bind ⟨[("x", .struct [("a", .null)])], [], []⟩ [(path "x" [.field "a"], .array [])] =
      (.ok (), ⟨[("x", .struct [("a", .array [])])], [], []⟩) := by
  have hbind : bind ⟨[("x", .struct [("a", .null)])], [], []⟩
      [(path "x" [.field "a", .index 2, .field "b"], .bool true)] =
      (.error (.indexOutOfRange 2 0), ⟨[("x", .struct [("a", .array [])])], [], []⟩) := by rfl
  refine ⟨hbind, ((failed_bind hbind).2 [.field "a"] 2 ?_).2.1⟩
  exact ⟨⟨[.field "b"], rfl⟩, by decide, .inr rfl, rfl⟩

/-- An index into a name that is not bound fails, and the name is bound to an empty array
afterwards. -/
theorem failed_bind_leaves_root :
    bind Scope.empty [(path "x" [.index 1], .bool true)] =
      (.error (.indexOutOfRange 1 0), Scope.empty.force "x" (.array [])) ∧
    Scope.empty.force "x" (.array []) ≠ Scope.empty := by
  refine ⟨rfl, ?_⟩
  intro h
  cases congrArg Scope.vars h

end Target

end Stepwise
