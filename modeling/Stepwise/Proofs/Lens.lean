import Stepwise.Assign
import Stepwise.Proofs.Assoc
import Stepwise.Proofs.Doubles

/-!
# Targets as lenses

Writing makes containers where they are missing, turns a null into one and lets an array grow by one
element; reading goes another way, and looks up an index as the double nearest to it. The two fit
all the same: **a value that was written is read back, what lies beside the path is as before, a
second value leaves nothing of the first, and writing what is there already changes nothing**
(`bind_lens`).

Each law is proved about one key of a container (`child?`, `setChild`), then along a path by
induction on its keys, then about a scope. Only reading sees doubles: an index is exact if arrays
have fewer than 2^53 elements, which `indexable` says of a value.

## Layout

`setPath` does the work of a write: it opens what is there, tests whether the key fits, goes on with
the part under the key and puts the result back. The second section cuts it into these pieces.
Either the first key is refused, or the container takes it, and then writing is writing into the
part (`setPath_of_refusal`, `setPath_of_takes`). All inductions over paths go by these two
equations, here and in `Proofs/FailedWrites`, and none unfolds `setPath` again.

That a container takes a key is `Takes`, an inductive predicate with two constructors: a struct
takes every field and an array every index up to its length. Each law about one key has these two
cases, and none of the others in which nothing can be written.
-/

namespace Stepwise

namespace Value

/-! ## One key of a container -/

/-- The part of a container under a key. -/
def child? : Value → Key → Option Value
  | .struct fields, .field name => Assoc.get? name fields
  | .array items, .index i => if 0 ≤ i then items[i.toNat]? else none
  | _, _ => none

/-- The container with another part under a key. Just behind its last element an array grows. -/
def setChild : Value → Key → Value → Value
  | .struct fields, .field name, part => .struct (Assoc.put name part fields)
  | .array items, .index i, part =>
    if i.toNat < items.length then .array (items.set i.toNat part) else .array (items ++ [part])
  | v, _, _ => v

/-- Why a value cannot be written into under a key, if it cannot. There is no container that takes
fields and indices. -/
def refusal : Value → Key → Option Fault
  | .struct _, .field _ => none
  | .array items, .index i =>
    if i < 0 ∨ (items.length : Int) < i then some (.indexOutOfRange i items.length) else none
  | v, .field name => some (.typeError (.notSettable name v.typeName))
  | v, .index _ => some (.typeError (.notIndexable v.typeName))

/-- The containers that can be written into under a key. An index may be the length of the array,
behind its last element. -/
inductive Takes : Value → Key → Prop where
  | field (fields : Assoc Value) (name : String) : Takes (.struct fields) (.field name)
  | index {items : List Value} {n : Nat} (h : n ≤ items.length) : Takes (.array items) (.index n)

theorem takes_of_refusal {c : Value} {key : Key} (h : c.refusal key = none) : Takes c key := by
  cases c with
  | struct fields =>
    cases key with
    | field name => exact .field fields name
    | index i => cases h
  | array items =>
    cases key with
    | field name => cases h
    | index i =>
      simp only [refusal] at h
      split at h
      · cases h
      · obtain ⟨n, rfl⟩ : ∃ n : Nat, i = n := ⟨i.toNat, by omega⟩
        exact .index (by omega)
  | null | bool | num | str | error =>
    cases key with
    | field name => cases h
    | index i => cases h

namespace Takes

variable {c : Value} {key : Key}

theorem opened (h : Takes c key) (next : Key) : c.opened next = c := by
  cases h with
  | field => rfl
  | index => rfl

theorem setChild (h : Takes c key) (part : Value) : Takes (c.setChild key part) key := by
  cases h with
  | field => exact .field _ _
  | @index items n h =>
    simp only [Value.setChild, Int.toNat_natCast]
    split
    · exact .index (by rw [List.length_set]; exact h)
    · exact .index (by rw [List.length_append]; omega)

theorem child?_setChild (h : Takes c key) (part : Value) :
    (c.setChild key part).child? key = some part := by
  cases h with
  | field fields name =>
    simp only [Value.setChild, child?, Assoc.get?_put, if_true]
  | @index items n h =>
    obtain hlt | rfl := Nat.lt_or_eq_of_le h
    · simp [Value.setChild, child?, hlt]
    · simp [Value.setChild, child?]

/-- Under all other keys there is what was there before. An array that grew has one more element,
which is the one that was written. -/
theorem child?_setChild_ne (h : Takes c key) (part : Value) {other : Key} (hne : key ≠ other) :
    (c.setChild key part).child? other = c.child? other := by
  cases h with
  | field fields name =>
    cases other with
    | index i => rfl
    | field name' =>
      have hname : name ≠ name' := fun heq => hne (congrArg Key.field heq)
      simp only [Value.setChild, child?, Assoc.get?_put, if_neg hname]
  | @index items n h =>
    simp only [Value.setChild, Int.toNat_natCast]
    cases other with
    | field name => split <;> rfl
    | index i =>
      have hindex : 0 ≤ i → n ≠ i.toNat := fun hi heq => hne (congrArg Key.index (by omega))
      by_cases hi : 0 ≤ i
      · split
        · simp only [child?, if_pos hi, List.getElem?_set_ne (hindex hi)]
        · -- the array grew, and what is asked for is not the new element
          obtain hlt | hlt := Nat.lt_or_gt_of_ne (hindex hi)
          · simp only [child?, if_pos hi]
            rw [List.getElem?_eq_none (by simp; omega), List.getElem?_eq_none (by omega)]
          · simp only [child?, if_pos hi]
            rw [List.getElem?_append_left (by omega)]
      · split <;> simp only [child?, if_neg hi]

theorem setChild_setChild (h : Takes c key) (part part' : Value) :
    (c.setChild key part).setChild key part' = c.setChild key part' := by
  cases h with
  | field fields name => simp only [Value.setChild, Assoc.put_put]
  | @index items n h =>
    obtain hlt | rfl := Nat.lt_or_eq_of_le h
    · simp [Value.setChild, hlt]
    · simp [Value.setChild]

theorem setChild_self (h : Takes c key) {part : Value} (hpart : c.child? key = some part) :
    c.setChild key part = c := by
  cases h with
  | field fields name => rw [Value.setChild, Assoc.put_of_get? hpart]
  | @index items n h =>
    simp only [child?, Int.natCast_nonneg, if_true, Int.toNat_natCast] at hpart
    obtain ⟨hlt, rfl⟩ := List.getElem?_eq_some_iff.mp hpart
    simp only [Value.setChild, Int.toNat_natCast, if_pos hlt, List.set_getElem_self]

end Takes

/-! ## Writing one key at a time -/

/-- What the keys are written into: the value at a place, or a fresh container if there is none. -/
def slotFor (place : Option Value) (keys : List Key) : Value :=
  place.getD (emptyFor keys.head?)

theorem slotFor_some (v : Value) (keys : List Key) : slotFor (some v) keys = v := rfl

/-- A refusal leaves what was opened, also where that is a container that was only just made. -/
theorem setPath_of_refusal {slot : Value} {key : Key} {f : Fault}
    (h : (slot.opened key).refusal key = some f) (v : Value) (rest : List Key) :
    slot.setPath v (key :: rest) = (.error f, slot.opened key) := by
  unfold setPath
  generalize slot.opened key = c at h
  cases c with
  -- a struct takes every name, and refuses every index
  | struct fields =>
    cases key with
    | field name => cases h
    | index i =>
      cases h
      rfl
  | array items =>
    cases key with
    | field name =>
      cases h
      rfl
    | index i =>
      simp only [refusal] at h
      split at h
      · rename_i hi
        cases h
        simp only [if_pos hi]
      · cases h
  -- no container, so nothing can be put in whatever the key is
  | null | bool | num | str | error =>
    cases key with
    | field name =>
      cases h
      rfl
    | index i =>
      cases h
      rfl

/-- Writing along a path is writing along the rest of it, into the part under the first key. -/
theorem setPath_of_takes {slot : Value} {key : Key} (h : Takes (slot.opened key) key) (v : Value)
    (rest : List Key) :
    slot.setPath v (key :: rest) =
      (((slotFor ((slot.opened key).child? key) rest).setPath v rest).1,
        (slot.opened key).setChild key
          ((slotFor ((slot.opened key).child? key) rest).setPath v rest).2) := by
  conv => lhs; unfold setPath
  generalize slot.opened key = c at h
  cases h with
  | field fields name =>
    cases rest with
    | nil => rfl
    | cons next rest => rfl
  | @index items n h =>
    have hin : ¬ ((n : Int) < 0 ∨ (items.length : Int) < n) := by omega
    simp only [if_neg hin, slotFor, child?, setChild, Int.natCast_nonneg, if_true,
      Int.toNat_natCast]
    split <;> rfl

theorem takes_of_setPath {slot slot' v : Value} {key : Key} {rest : List Key}
    (h : slot.setPath v (key :: rest) = (.ok (), slot')) : Takes (slot.opened key) key := by
  cases hrefusal : (slot.opened key).refusal key with
  | none => exact takes_of_refusal hrefusal
  | some f =>
    rw [setPath_of_refusal hrefusal] at h
    cases h

theorem setPath_cons_eq_ok {slot slot' v : Value} {key : Key} {rest : List Key}
    (h : slot.setPath v (key :: rest) = (.ok (), slot')) :
    ∃ part, (slotFor ((slot.opened key).child? key) rest).setPath v rest = (.ok (), part) ∧
      slot' = (slot.opened key).setChild key part := by
  rw [setPath_of_takes (takes_of_setPath h), Prod.mk.injEq] at h
  exact ⟨_, Prod.ext h.1 rfl, h.2.symm⟩

/-- Whether writing succeeds does not depend on the value. It depends on the keys and on what they
lead through. -/
theorem setPath_fst (slot v v' : Value) (keys : List Key) :
    (slot.setPath v' keys).1 = (slot.setPath v keys).1 := by
  induction keys generalizing slot with
  | nil => rfl
  | cons key rest ih =>
    cases hrefusal : (slot.opened key).refusal key with
    | none =>
      have takes := takes_of_refusal hrefusal
      rw [setPath_of_takes takes, setPath_of_takes takes]
      exact ih _
    | some f => rw [setPath_of_refusal hrefusal, setPath_of_refusal hrefusal]

/-! ## Reading one key -/

mutual

/-- No array in the value has 2^53 elements or more, so that an index into it is exact as a
double. -/
def indexable : Value → Bool
  | .array items => decide (items.length < 0x20000000000000) && indexableItems items
  | .struct fields => indexableFields fields
  | _ => true

def indexableItems : List Value → Bool
  | [] => true
  | v :: rest => indexable v && indexableItems rest

def indexableFields : List (String × Value) → Bool
  | [] => true
  | (_, v) :: rest => indexable v && indexableFields rest

end

theorem indexable_of_getElem? {items : List Value} (h : indexableItems items = true)
    {n : Nat} {v : Value} (hv : items[n]? = some v) : v.indexable = true := by
  induction items generalizing n with
  | nil => cases hv
  | cons first rest ih =>
    simp only [indexableItems, Bool.and_eq_true] at h
    cases n with
    | zero =>
      cases hv
      exact h.1
    | succ n => exact ih h.2 hv

theorem indexable_of_get? {fields : Assoc Value} (h : indexableFields fields = true) {name : String}
    {v : Value} (hv : Assoc.get? name fields = some v) : v.indexable = true := by
  induction fields with
  | nil => cases hv
  | cons entry rest ih =>
    obtain ⟨first, w⟩ := entry
    simp only [indexableFields, Bool.and_eq_true] at h
    rw [Assoc.get?] at hv
    split at hv
    · cases hv
      exact h.1
    · exact ih h.2 hv

theorem indexable_emptyFor (key : Option Key) : (emptyFor key).indexable = true := by
  unfold emptyFor
  split <;> rfl

theorem indexable_opened {v : Value} (h : v.indexable = true) (key : Key) :
    (v.opened key).indexable = true := by
  unfold opened
  split
  · exact indexable_emptyFor _
  · exact h

theorem indexable_child? {c : Value} (h : c.indexable = true) {key : Key} {v : Value}
    (hv : c.child? key = some v) : v.indexable = true := by
  unfold child? at hv
  split at hv
  · exact indexable_of_get? h hv
  · simp only [indexable, Bool.and_eq_true] at h
    split at hv
    · exact indexable_of_getElem? h.2 hv
    · cases hv
  · cases hv

theorem indexable_slotFor {place : Option Value} (h : ∀ v, place = some v → v.indexable = true)
    (keys : List Key) : (slotFor place keys).indexable = true := by
  cases place with
  | none => exact indexable_emptyFor _
  | some v => exact h v rfl

/-- How many elements an array has. A write can make it one larger, and the larger one need not be
`indexable` any more; therefore reading is stated for one element more. -/
def width : Value → Nat
  | .array items => items.length
  | _ => 0

theorem width_lt_of_indexable {v : Value} (h : v.indexable = true) :
    v.width < 0x20000000000000 := by
  cases v with
  | array items =>
    simp only [indexable, Bool.and_eq_true, decide_eq_true_eq] at h
    exact h.1
  | null | bool | num | str | struct | error => exact Nat.zero_lt_succ _

theorem width_setChild_le (c : Value) (key : Key) (part : Value) :
    (c.setChild key part).width ≤ c.width + 1 := by
  unfold setChild
  split
  · exact Nat.zero_le _
  · split
    · simp [width]
    · simp [width]
  · exact Nat.le_succ _

theorem toIndex_ofInt {i : Int} (small : i.natAbs < 0x20000000000000) :
    (Value.num (Float.ofInt i)).toIndex = .ok i := by
  simp only [toIndex, Number.whole?_ofInt small, Number.toInt64_ofInt small]

/-- An index that is read as a small number is that number: a large one stays large as a double. Two
large ones may become the same double, but no array has an element there. -/
theorem eq_of_toIndex_ofInt {i j : Int} (h : (Value.num (Float.ofInt i)).toIndex = .ok j)
    (small : j.natAbs < 0x20000000000000) : i = j := by
  by_cases hi : i.natAbs < 0x20000000000000
  · rw [toIndex_ofInt hi] at h
    exact Except.ok.inj h
  · have large := Number.le_toInt64_ofInt (Nat.le_of_not_lt hi)
    simp only [toIndex] at h
    split at h
    · cases h
      omega
    · cases h

theorem elementAt_eq_ok {items : List Value} {i : Int} {v : Value} :
    elementAt items i = .ok v ↔ (Value.array items).child? (.index i) = some v := by
  unfold elementAt
  rw [child?]
  cases if 0 ≤ i then items[i.toNat]? else none with
  | none => exact Iff.intro (fun h => by cases h) (fun h => by cases h)
  | some w => exact Iff.intro (fun h => by cases h; rfl) (fun h => by cases h; rfl)

theorem natAbs_lt_of_child? {items : List Value} {i : Int} {v : Value}
    (h : (Value.array items).child? (.index i) = some v) : i.natAbs < items.length := by
  rw [child?] at h
  split at h
  · obtain ⟨hlt, -⟩ := List.getElem?_eq_some_iff.mp h
    omega
  · cases h

/-- In an array of at most 2^53 elements, reading an index finds the element with that index. -/
theorem at?_index_eq_ok {items : List Value} (short : items.length ≤ 0x20000000000000) {i : Int}
    {v : Value} :
    (Value.array items).at? (.index i) = .ok v ↔
      (Value.array items).child? (.index i) = some v := by
  simp only [at?, element]
  constructor
  · intro h
    cases hindex : (Value.num (Float.ofInt i)).toIndex with
    | error f =>
      rw [hindex] at h
      cases h
    | ok j =>
      rw [hindex] at h
      have hchild := elementAt_eq_ok.mp h
      have hlt := natAbs_lt_of_child? hchild
      rw [eq_of_toIndex_ofInt hindex (by omega)]
      exact hchild
  · intro h
    have hlt := natAbs_lt_of_child? h
    rw [toIndex_ofInt (by omega)]
    exact elementAt_eq_ok.mpr h

/-- Reading under a key finds the part under the key. Texts and errors have fields or elements to
read as well, but they take no key. -/
theorem Takes.at?_eq_ok {c : Value} {key : Key} (h : Takes c key)
    (short : c.width ≤ 0x20000000000000) {other : Key} {v : Value} :
    c.at? other = .ok v ↔ c.child? other = some v := by
  cases h with
  | field fields name =>
    cases other with
    | index i => exact Iff.intro (fun h => by cases h) (fun h => by cases h)
    | field name' =>
      simp only [at?, Value.field, child?]
      cases Assoc.get? name' fields with
      | none => exact Iff.intro (fun h => by cases h) (fun h => by cases h)
      | some w => exact Iff.intro (fun h => by cases h; rfl) (fun h => by cases h; rfl)
  | @index items n h =>
    cases other with
    | field name => exact Iff.intro (fun h => by cases h) (fun h => by cases h)
    | index i => exact at?_index_eq_ok short

theorem opened_of_at? {slot v : Value} {key : Key} (h : slot.at? key = .ok v) (next : Key) :
    slot.opened next = slot := by
  cases slot with
  | null => cases key <;> cases h
  | bool | num | str | array | struct | error => rfl

theorem atPath_cons_eq_ok {slot w : Value} {key : Key} {rest : List Key} :
    slot.atPath (key :: rest) = .ok w ↔
      ∃ part, slot.at? key = .ok part ∧ part.atPath rest = .ok w := by
  rw [atPath]
  cases slot.at? key with
  | error f =>
    constructor
    · intro h
      cases h
    · rintro ⟨part, h, -⟩
      cases h
  | ok part =>
    constructor
    · intro h
      exact ⟨part, rfl, h⟩
    · rintro ⟨part', heq, h⟩
      cases heq
      exact h

/-! ## The laws along a path -/

variable {slot slot' v : Value} {keys : List Key}

theorem atPath_setPath (small : slot.indexable = true) (h : slot.setPath v keys = (.ok (), slot')) :
    slot'.atPath keys = .ok v := by
  induction keys generalizing slot slot' with
  | nil =>
    cases h
    rfl
  | cons key rest ih =>
    have takes := takes_of_setPath h
    obtain ⟨part, hpart, rfl⟩ := setPath_cons_eq_ok h
    have hopened := indexable_opened small key
    have hchild : ∀ inner, (slot.opened key).child? key = some inner → inner.indexable = true :=
      fun inner => indexable_child? hopened
    have hwidth := width_lt_of_indexable hopened
    have hgrown := width_setChild_le (slot.opened key) key part
    refine atPath_cons_eq_ok.mpr ⟨part, ?_, ih (indexable_slotFor hchild rest) hpart⟩
    rw [(takes.setChild part).at?_eq_ok (by omega)]
    exact takes.child?_setChild part

/-- What is read along another path is as before, if neither of the two goes on from the other. The
two part at some key, and beyond it the write went elsewhere. -/
theorem atPath_setPath_beside (small : slot.indexable = true)
    (h : slot.setPath v keys = (.ok (), slot')) {q : List Key} (hq : ¬ q <+: keys)
    (hkeys : ¬ keys <+: q) {w : Value} (hw : slot.atPath q = .ok w) :
    slot'.atPath q = .ok w := by
  induction keys generalizing slot slot' q with
  | nil => exact absurd List.nil_prefix hkeys
  | cons key rest ih =>
    cases q with
    | nil => exact absurd List.nil_prefix hq
    | cons other q =>
      obtain ⟨inner, hat, hinner⟩ := atPath_cons_eq_ok.mp hw
      have takes := takes_of_setPath h
      obtain ⟨part, hpart, rfl⟩ := setPath_cons_eq_ok h
      rw [opened_of_at? hat] at takes hpart ⊢
      -- the write may append one element, and the index of what was read must still be the same
      -- number
      have hwidth := width_lt_of_indexable small
      have hgrown := width_setChild_le slot key part
      have hchild := (takes.at?_eq_ok (by omega)).mp hat
      by_cases heq : key = other
      · -- the paths part further down, so the write went through what was read
        subst heq
        rw [hchild, slotFor_some] at hpart
        have hrest := ih (indexable_child? small hchild) hpart
          (fun hpre => hq (List.cons_prefix_cons.mpr ⟨rfl, hpre⟩))
          (fun hpre => hkeys (List.cons_prefix_cons.mpr ⟨rfl, hpre⟩)) hinner
        refine atPath_cons_eq_ok.mpr ⟨part, ?_, hrest⟩
        rw [(takes.setChild part).at?_eq_ok (by omega)]
        exact takes.child?_setChild part
      · refine atPath_cons_eq_ok.mpr ⟨inner, ?_, hinner⟩
        rw [(takes.setChild part).at?_eq_ok (by omega), takes.child?_setChild_ne part heq]
        exact hchild

/-- A second value leaves nothing of the first. What the first write made on its way is what the
second would have made. -/
theorem setPath_setPath (h : slot.setPath v keys = (.ok (), slot')) (v' : Value) :
    slot'.setPath v' keys = slot.setPath v' keys := by
  induction keys generalizing slot slot' with
  | nil => rfl
  | cons key rest ih =>
    have takes := takes_of_setPath h
    obtain ⟨part, hpart, rfl⟩ := setPath_cons_eq_ok h
    have hset := takes.setChild part
    have htakes : Takes (((slot.opened key).setChild key part).opened key) key := by
      rw [hset.opened]
      exact hset
    rw [setPath_of_takes htakes, setPath_of_takes takes, hset.opened, takes.child?_setChild,
      slotFor_some, ih hpart, takes.setChild_setChild]

/-- Writing what is there changes nothing. Where it can be read no container is missing, so nothing
is made. -/
theorem setPath_atPath (small : slot.indexable = true) (hv : slot.atPath keys = .ok v)
    (h : slot.setPath v keys = (.ok (), slot')) : slot' = slot := by
  induction keys generalizing slot slot' with
  | nil =>
    cases h
    cases hv
    rfl
  | cons key rest ih =>
    obtain ⟨inner, hat, hinner⟩ := atPath_cons_eq_ok.mp hv
    have takes := takes_of_setPath h
    obtain ⟨part, hpart, rfl⟩ := setPath_cons_eq_ok h
    rw [opened_of_at? hat] at takes hpart ⊢
    have hchild := (takes.at?_eq_ok (Nat.le_of_lt (width_lt_of_indexable small))).mp hat
    rw [hchild, slotFor_some] at hpart
    rw [ih (indexable_child? small hchild) hinner hpart]
    exact takes.setChild_self hchild

end Value

/-! ## The laws of a scope

A target is a name with keys behind it. A constant refuses; all other writes are writes along the
keys into the value of the name, or into a fresh container if it has none. -/

namespace Scope

theorem force_force (s : Scope) (name : String) (v w : Value) :
    (s.force name v).force name w = s.force name w := by
  simp only [force, Assoc.put_put]

theorem force_of_get? {s : Scope} {name : String} {v : Value} (h : s.get? name = some v) :
    s.force name v = s := by
  simp only [force, Assoc.put_of_get? h]

end Scope

namespace Target

theorem write_of_const {s : Scope} {t : Target} (h : s.isConst t.root = true) (v : Value) :
    t.write s v = (.error (.assignToConstant t.root), s) := by
  cases t with
  | var name =>
    have hconst : s.isConst name = true := h
    simp only [write, Scope.set, hconst, if_true, root]
  | path name keys =>
    have hconst : s.isConst name = true := h
    cases hcontains : s.contains name with
    | true => simp only [write, hcontains, if_true, Scope.updatable, hconst, root]
    | false =>
      simp only [write, hcontains, Bool.false_eq_true, if_false, Scope.set, hconst, if_true, root]

/-- Apart from constants, writing a target is writing along its keys into the value of its root. -/
theorem write_of_not_const {s : Scope} {t : Target} (h : s.isConst t.root = false) (v : Value) :
    t.write s v =
      (((Value.slotFor (s.get? t.root) t.keys).setPath v t.keys).1,
        s.force t.root ((Value.slotFor (s.get? t.root) t.keys).setPath v t.keys).2) := by
  cases t with
  | var name =>
    have hconst : s.isConst name = false := h
    simp only [write, Scope.set, hconst, Bool.false_eq_true, if_false, keys, root, Value.setPath]
  | path name keys =>
    have hconst : s.isConst name = false := h
    cases hget : s.get? name with
    | some w =>
      have hcontains : s.contains name = true := by
        rw [Scope.contains, Assoc.contains]
        exact congrArg Option.isSome hget
      simp only [write, hcontains, if_true, Scope.updatable, hconst, Bool.false_eq_true, if_false,
        Scope.get, hget, Value.slotFor, root, Target.keys, Option.getD_some]
    -- nothing is there, so an empty container is bound first, and the path starts in that
    | none =>
      have hcontains : s.contains name = false := by
        rw [Scope.contains, Assoc.contains]
        exact congrArg Option.isSome hget
      have hforced : (s.force name (Value.emptyFor keys.head?)).get? name =
          some (Value.emptyFor keys.head?) := by
        rw [Scope.get?, Scope.force, Assoc.get?_put, if_pos rfl]
      have hconst' : (s.force name (Value.emptyFor keys.head?)).isConst name = false := hconst
      simp only [write, hcontains, Bool.false_eq_true, if_false, Scope.set, hconst, Scope.updatable,
        hconst', Scope.get, hforced, Scope.force_force, Value.slotFor, root, Target.keys, hget,
        Option.getD_none]

theorem bind_single (s : Scope) (t : Target) (v : Value) : bind s [(t, v)] = t.write s v := by
  rw [bind]
  split
  · rename_i heq
    rw [heq, bind]
  · rename_i heq
    rw [heq]

theorem bind_eq_ok {s s' : Scope} {t : Target} {v : Value} (h : bind s [(t, v)] = (.ok (), s')) :
    s.isConst t.root = false ∧
      ∃ part, (Value.slotFor (s.get? t.root) t.keys).setPath v t.keys = (.ok (), part) ∧
        s' = s.force t.root part := by
  rw [bind_single] at h
  cases hconst : s.isConst t.root with
  | true =>
    rw [write_of_const hconst] at h
    cases h
  | false =>
    rw [write_of_not_const hconst, Prod.mk.injEq] at h
    exact ⟨rfl, _, Prod.ext h.1 rfl, h.2.symm⟩

theorem read_eq_ok {s : Scope} {t : Target} {w : Value} :
    t.read s = .ok w ↔ ∃ slot, s.get? t.root = some slot ∧ slot.atPath t.keys = .ok w := by
  rw [read, Scope.get]
  cases s.get? t.root with
  | none =>
    constructor
    · intro h
      cases h
    · rintro ⟨slot, h, -⟩
      cases h
  | some slot =>
    constructor
    · intro h
      exact ⟨slot, rfl, h⟩
    · rintro ⟨slot', heq, h⟩
      cases heq
      exact h

theorem get?_force_root (s : Scope) (t : Target) (part : Value) :
    (s.force t.root part).get? t.root = some part := by
  rw [Scope.get?, Scope.force, Assoc.get?_put, if_pos rfl]

/-- Once a value was written to a target, it is read back there. What is bound to other names, and
what is read along a path of the same root that neither leads to the target nor through it, is as
before. A second value can be written, and then the scope is as if the first had never been. And
writing what was read at the target before leaves the scope as it is. -/
theorem bind_lens {s s' : Scope} {t : Target} {v : Value} (h : bind s [(t, v)] = (.ok (), s'))
    (small : ∀ w, s.get? t.root = some w → w.indexable = true) :
    t.read s' = .ok v ∧
    ((∀ name, name ≠ t.root → s'.get? name = s.get? name) ∧
      s'.constants = s.constants ∧ s'.webs = s.webs ∧
      ∀ q, ¬ q <+: t.keys → ¬ t.keys <+: q →
        ∀ w, (path t.root q).read s = .ok w → (path t.root q).read s' = .ok w) ∧
    (∀ v', (bind s' [(t, v')]).1 = .ok () ∧ bind s' [(t, v')] = bind s [(t, v')]) ∧
    (∀ w, t.read s = .ok w → bind s [(t, w)] = (.ok (), s)) := by
  obtain ⟨hconst, part, hpart, rfl⟩ := bind_eq_ok h
  have hslot := Value.indexable_slotFor small t.keys
  refine ⟨?_, ⟨?_, rfl, rfl, ?_⟩, ?_, ?_⟩
  · exact read_eq_ok.mpr ⟨part, get?_force_root s t part, Value.atPath_setPath hslot hpart⟩
  · intro name hne
    rw [Scope.get?, Scope.force, Assoc.get?_put, if_neg (Ne.symm hne)]
    rfl
  -- something was read there before, so the root had a value and no container was made
  · intro q hq hkeys w hw
    obtain ⟨old, hold, hat⟩ := read_eq_ok.mp hw
    have hroot : s.get? t.root = some old := hold
    rw [hroot, Value.slotFor_some] at hpart hslot
    exact read_eq_ok.mpr
      ⟨part, get?_force_root s t part, Value.atPath_setPath_beside hslot hpart hq hkeys hat⟩
  -- a path that could be written once can be written again, and to the same effect
  · intro v'
    have hsame : bind (s.force t.root part) [(t, v')] = bind s [(t, v')] := by
      have hnew : (s.force t.root part).isConst t.root = false := hconst
      rw [bind_single, bind_single, write_of_not_const hnew, write_of_not_const hconst,
        get?_force_root, Value.slotFor_some, Value.setPath_setPath hpart, Scope.force_force]
    refine ⟨?_, hsame⟩
    rw [hsame, bind_single, write_of_not_const hconst, Value.setPath_fst _ v v', hpart]
  · intro w hw
    obtain ⟨old, hold, hat⟩ := read_eq_ok.mp hw
    rw [hold, Value.slotFor_some] at hpart hslot
    have hok : (old.setPath w t.keys).1 = .ok () := by rw [Value.setPath_fst old v w, hpart]
    have hself : (old.setPath w t.keys).2 = old := Value.setPath_atPath hslot hat (Prod.ext hok rfl)
    rw [bind_single, write_of_not_const hconst, hold, Value.slotFor_some, hok, hself,
      Scope.force_of_get? hold]

/-- A null inside an array becomes a struct, and the field beside the array is still there. -/
theorem bind_lens_through_null :
    ∃ s',
      bind ⟨[("x", .struct [("a", .array [.bool true, .null]), ("b", .str "kept")])], ["k"], []⟩
        [(path "x" [.field "a", .index 1, .field "c"], .str "new")] = (.ok (), s') ∧
      (path "x" [.field "a", .index 1, .field "c"]).read s' = .ok (.str "new") ∧
      (path "x" [.field "b"]).read s' = .ok (.str "kept") := by
  refine ⟨_, rfl, ?_⟩
  have hlens := bind_lens
    (s := ⟨[("x", .struct [("a", .array [.bool true, .null]), ("b", .str "kept")])], ["k"], []⟩)
    (t := path "x" [.field "a", .index 1, .field "c"]) (v := .str "new") rfl
    (fun w hw => by cases hw; rfl)
  exact ⟨hlens.1, hlens.2.1.2.2.2 [.field "b"] (by decide) (by decide) (.str "kept") rfl⟩

end Target

end Stepwise
