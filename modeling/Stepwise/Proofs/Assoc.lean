import Stepwise.Assoc

/-!
# Reading association lists

Structs, scopes, label tables, function tables and the members of JSON objects are all lists of
pairs. What such a list means as a map is said by `get?`, and what it looks like by the order of its
keys. The two are kept apart here, because most of the project needs only the first.

`get?_put` is the law of reading back. It holds of every list, in order or not, and all that is
known of the tables of a program and of the variables of a scope comes from it. In particular
nothing is asked of the lists that a host or a file brings in.

The order of the keys is kept by all operations: a map that starts empty, or is made of pairs, is in
order (`sorted_ofList`), and stays so (`Sorted.put`, `Sorted.erase`). A map in order is given back
by putting its own pairs together (`ofList_of_sorted`), and this is what reading back the text of a
map comes down to: the reader puts pairs together in the order in which the writer found them.

A property of all values of a map goes through the same operations (`forall_put`, `forall_ofList`),
which is how an invariant of values becomes one of scopes.
-/

namespace Stepwise.Assoc

variable {α : Type} {m : Assoc α}

/-! ## Reading back

`put` has two arms, by whether the key is there. Either of them is a recursion of its own, so each
law of `put` is proved for `replace` and for `insert` and put together. -/

/-- A value that takes the place of another is found under its key, and under no other key is
anything changed. That the key is there has to be known, since nothing is replaced otherwise. -/
theorem get?_replace (k key : String) (a : α) (h : contains key m = true) :
    get? k (replace key a m) = if key = k then some a else get? k m := by
  induction m with
  | nil => cases h
  | cons entry rest ih =>
    obtain ⟨first, b⟩ := entry
    by_cases hfirst : first = key
    · subst hfirst
      simp only [replace, if_true, get?]
      split <;> rfl
    · have hrest : contains key rest = true := by
        simpa only [contains, get?, if_neg hfirst] using h
      simp only [replace, if_neg hfirst, get?, ih hrest]
      by_cases hk : first = k
      · subst hk
        rw [if_pos rfl, if_neg (Ne.symm hfirst), if_pos rfl]
      · rw [if_neg hk, if_neg hk]

/-- A value under a new key is found. Where it goes is decided by the order of the keys, and that it
is found does not depend on it. -/
theorem get?_insert (k key : String) (a : α) (h : contains key m = false) :
    get? k (insert key a m) = if key = k then some a else get? k m := by
  induction m with
  | nil => rfl
  | cons entry rest ih =>
    obtain ⟨first, b⟩ := entry
    -- the first pair has another key, or the key would be there already
    have hfirst : first ≠ key := by
      rintro rfl
      simp only [contains, get?, if_true, Option.isSome_some] at h
      cases h
    have hrest : contains key rest = false := by
      simpa only [contains, get?, if_neg hfirst] using h
    by_cases hlt : key < first
    · simp only [insert, if_pos hlt, get?]
    · simp only [insert, if_neg hlt, get?, ih hrest]
      by_cases hk : first = k
      · subst hk
        rw [if_pos rfl, if_neg (Ne.symm hfirst), if_pos rfl]
      · rw [if_neg hk, if_neg hk]

/-- What was put is read back, and all else is as before. This is the one fact about maps that the
proofs about scopes and tables use. -/
theorem get?_put (k key : String) (a : α) (m : Assoc α) :
    get? k (put key a m) = if key = k then some a else get? k m := by
  unfold put
  cases h : contains key m with
  | true => exact get?_replace k key a h
  | false => exact get?_insert k key a h

theorem contains_put (key : String) (a : α) (m : Assoc α) :
    contains key (put key a m) = true := by
  rw [contains, get?_put, if_pos rfl, Option.isSome_some]

/-- The second of two values for one key is left. It does not matter here whether the key is there:
where it is not, neither of the two does anything. -/
theorem replace_replace (key : String) (a b : α) (m : Assoc α) :
    replace key b (replace key a m) = replace key b m := by
  induction m with
  | nil => rfl
  | cons entry rest ih =>
    obtain ⟨first, c⟩ := entry
    by_cases hfirst : first = key
    · simp only [replace, if_pos hfirst]
    · simp only [replace, if_neg hfirst, ih]

theorem replace_insert (key : String) (a b : α) (h : contains key m = false) :
    replace key b (insert key a m) = insert key b m := by
  induction m with
  | nil => simp only [insert, replace, if_true]
  | cons entry rest ih =>
    obtain ⟨first, c⟩ := entry
    have hfirst : first ≠ key := by
      rintro rfl
      simp only [contains, get?, if_true, Option.isSome_some] at h
      cases h
    have hrest : contains key rest = false := by
      simpa only [contains, get?, if_neg hfirst] using h
    by_cases hlt : key < first
    · simp only [insert, if_pos hlt, replace, if_true]
    · simp only [insert, if_neg hlt, replace, if_neg hfirst, ih hrest]

/-- Of two values put under one key the second is left, and nothing of the first: the lists are
equal, not only what is read from them. -/
theorem put_put (key : String) (a b : α) (m : Assoc α) :
    put key b (put key a m) = put key b m := by
  rw [put, if_pos (contains_put key a m)]
  unfold put
  cases h : contains key m with
  | true => exact replace_replace key a b m
  | false => exact replace_insert key a b h

/-- Putting what is there already changes nothing. The list itself is the same, so a scope that gets
back what a parameter shadowed is the scope that was there before. -/
theorem put_of_get? {key : String} {a : α} (h : get? key m = some a) : put key a m = m := by
  have hcontains : contains key m = true := by rw [contains, h, Option.isSome_some]
  rw [put, if_pos hcontains]
  clear hcontains
  induction m with
  | nil => cases h
  | cons entry rest ih =>
    obtain ⟨first, b⟩ := entry
    by_cases hfirst : first = key
    · rw [get?, if_pos hfirst] at h
      cases h
      rw [replace, if_pos hfirst]
    · rw [get?, if_neg hfirst] at h
      rw [replace, if_neg hfirst, ih h]

/-! ## Many pairs

A table is made by putting one pair after the other, so that a later pair wins. `get?_ofList` says
which one is found, and the lemmas around it are about its two usual cases: a key that occurs in
none of the pairs, and pairs with different keys. -/

/-- What is found after putting pairs was there before, or is one of them. It says where a value
comes from without asking which pair won. -/
theorem get?_foldl_put {k : String} {a : α} {pairs : List (String × α)} {m : Assoc α}
    (h : get? k (pairs.foldl (fun m entry => put entry.1 entry.2 m) m) = some a) :
    get? k m = some a ∨ (k, a) ∈ pairs := by
  induction pairs generalizing m with
  | nil => exact .inl h
  | cons entry pairs ih =>
    obtain hm | hmem := ih h
    · rw [get?_put] at hm
      split at hm
      · rename_i hkey
        cases hm
        exact .inr (hkey ▸ List.mem_cons_self)
      · exact .inl hm
    · exact .inr (List.mem_cons_of_mem _ hmem)

theorem mem_of_get?_ofList {k : String} {a : α} {pairs : List (String × α)}
    (h : get? k (ofList pairs) = some a) : (k, a) ∈ pairs := by
  obtain hnone | hmem := get?_foldl_put h
  · cases hnone
  · exact hmem

/-- The last of the pairs with the key, or what the map had. The pairs are searched from the back,
since a later one takes the place of an earlier one. -/
theorem get?_foldl_put_eq (k : String) (pairs : List (String × α)) (m : Assoc α) :
    get? k (pairs.foldl (fun m entry => put entry.1 entry.2 m) m) =
      ((pairs.reverse.find? fun entry => entry.1 == k).map (·.2)).or (get? k m) := by
  induction pairs generalizing m with
  | nil => rfl
  | cons entry pairs ih =>
    -- the first pair is the last one that the search from the back comes to, and what was put for
    -- it is looked for in the map
    rw [List.foldl_cons, ih, get?_put, List.reverse_cons, List.find?_append, Option.map_or,
      Option.or_assoc]
    congr 1
    by_cases hkey : entry.1 = k
    · simp [hkey]
    · simp [hkey]

/-- Of several pairs with one key the last is found. Functions that are declared twice and members
that occur twice in a text are decided by this. -/
theorem get?_ofList (k : String) (pairs : List (String × α)) :
    get? k (ofList pairs) = (pairs.reverse.find? fun entry => entry.1 == k).map (·.2) := by
  rw [ofList, get?_foldl_put_eq]
  exact Option.or_none

theorem get?_foldl_put_of_notMem {k : String} {pairs : List (String × α)} {m : Assoc α}
    (h : k ∉ keys pairs) :
    get? k (pairs.foldl (fun m entry => put entry.1 entry.2 m) m) = get? k m := by
  induction pairs generalizing m with
  | nil => rfl
  | cons entry pairs ih =>
    simp only [keys, List.map_cons, List.mem_cons, not_or] at h
    rw [List.foldl_cons, ih h.2, get?_put, if_neg (Ne.symm h.1)]

theorem get?_foldl_put_of_mem {k : String} {a : α} {pairs : List (String × α)} {m : Assoc α}
    (distinct : (keys pairs).Nodup) (h : (k, a) ∈ pairs) :
    get? k (pairs.foldl (fun m entry => put entry.1 entry.2 m) m) = some a := by
  induction pairs generalizing m with
  | nil => cases h
  | cons entry pairs ih =>
    obtain ⟨hfirst, hrest⟩ := List.nodup_cons.mp distinct
    obtain rfl | hmem := List.mem_cons.mp h
    · rw [List.foldl_cons, get?_foldl_put_of_notMem hfirst, get?_put, if_pos rfl]
    · exact ih hrest hmem

/-- Pairs with different keys are all found once they are put into a map. So bringing the members of
a tree into key order loses none of them. -/
theorem get?_ofList_of_mem {k : String} {a : α} {pairs : List (String × α)}
    (distinct : (keys pairs).Nodup) (h : (k, a) ∈ pairs) : get? k (ofList pairs) = some a :=
  get?_foldl_put_of_mem distinct h

/-- A list without repeated keys can be read by membership alone. -/
theorem get?_of_mem {k : String} {a : α} (distinct : (keys m).Nodup) (h : (k, a) ∈ m) :
    get? k m = some a := by
  induction m with
  | nil => cases h
  | cons entry rest ih =>
    obtain ⟨first, b⟩ := entry
    obtain ⟨hfirst, hrest⟩ := List.nodup_cons.mp distinct
    cases h with
    | head => exact if_pos rfl
    | tail _ hmem =>
      have hne : first ≠ k := by
        rintro rfl
        exact hfirst (List.mem_map.mpr ⟨_, hmem, rfl⟩)
      rw [get?, if_neg hne]
      exact ih hrest hmem

/-- What is found is in the list. The converse needs that no key occurs twice, since only the first
pair with a key is found. -/
theorem mem_of_get? {key : String} {a : α} (h : get? key m = some a) : (key, a) ∈ m := by
  induction m with
  | nil => cases h
  | cons entry rest ih =>
    obtain ⟨k, b⟩ := entry
    rw [get?] at h
    split at h
    · rename_i hkey
      cases h
      exact hkey ▸ List.mem_cons_self
    · exact List.mem_cons_of_mem _ (ih h)

theorem get?_erase_of_ne {k key : String} (h : k ≠ key) : get? k (erase key m) = get? k m := by
  induction m with
  | nil => rfl
  | cons entry rest ih =>
    obtain ⟨first, b⟩ := entry
    unfold erase at ih ⊢
    by_cases hfirst : first = key
    · have hne : first ≠ k := fun heq => h (heq.symm.trans hfirst)
      rw [List.filter_cons_of_neg (by simpa using hfirst), ih, get?, if_neg hne]
    · rw [List.filter_cons_of_pos (by simpa using hfirst), get?, get?, ih]

/-! ## Maps in order

`Sorted` says that the keys increase, so no key occurs twice. The order is that of strings, and the
only fact about it that is used is that it is linear. -/

instance (m : Assoc α) : Decidable (Sorted m) :=
  inferInstanceAs (Decidable ((keys m).Pairwise (· < ·)))

theorem contains_eq_false {key : String} (h : key ∉ keys m) : contains key m = false := by
  induction m with
  | nil => rfl
  | cons entry rest ih =>
    obtain ⟨first, b⟩ := entry
    obtain ⟨hne, hrest⟩ := not_or.mp (mt List.mem_cons.mpr h)
    rw [contains, get?, if_neg (Ne.symm hne)]
    exact ih hrest

theorem not_mem_keys {key : String} (h : contains key m = false) : key ∉ keys m := by
  induction m with
  | nil => exact List.not_mem_nil
  | cons entry rest ih =>
    obtain ⟨first, b⟩ := entry
    rw [contains, get?] at h
    split at h
    · cases h
    · rename_i hne
      intro hmem
      obtain rfl | hrest := List.mem_cons.mp hmem
      · exact hne rfl
      · exact ih h hrest

theorem sorted_nil : Sorted ([] : Assoc α) := List.Pairwise.nil

theorem sorted_cons {key : String} {a : α} :
    Sorted ((key, a) :: m) ↔ (∀ k ∈ keys m, key < k) ∧ Sorted m :=
  List.pairwise_cons

theorem keys_replace (key : String) (a : α) (m : Assoc α) : keys (replace key a m) = keys m := by
  induction m with
  | nil => rfl
  | cons entry rest ih =>
    obtain ⟨first, b⟩ := entry
    rw [replace]
    split
    · rfl
    · exact congrArg (first :: ·) ih

theorem mem_keys_insert {k key : String} {a : α} (h : k ∈ keys (insert key a m)) :
    k = key ∨ k ∈ keys m := by
  induction m with
  | nil => exact .inl (List.mem_singleton.mp h)
  | cons entry rest ih =>
    obtain ⟨first, b⟩ := entry
    rw [insert] at h
    split at h
    · exact List.mem_cons.mp h
    · obtain rfl | hrest := List.mem_cons.mp h
      · exact .inr List.mem_cons_self
      · exact (ih hrest).imp_right (List.mem_cons_of_mem _)

namespace Sorted

/-- A new key goes in front of the first one that is larger. The induction looks for that place: as
long as the first key is smaller, it is smaller than all keys behind it and than the new one. -/
theorem insert {key : String} (a : α) (h : Sorted m) (hnew : key ∉ keys m) :
    Sorted (insert key a m) := by
  induction m with
  | nil => exact List.pairwise_singleton _ _
  | cons entry rest ih =>
    obtain ⟨first, b⟩ := entry
    obtain ⟨hfirst, hrest⟩ := sorted_cons.mp h
    obtain ⟨hne, hnot⟩ := not_or.mp (mt List.mem_cons.mpr hnew)
    rw [Assoc.insert]
    split
    · rename_i hlt
      -- the new key is the smallest
      refine sorted_cons.mpr ⟨?_, h⟩
      intro k hk
      obtain rfl | hk := List.mem_cons.mp hk
      · exact hlt
      · exact String.lt_trans hlt (hfirst k hk)
    · rename_i hlt
      -- the first key is smaller, since it is neither larger nor the same
      have hsmaller : first < key := Decidable.byContradiction fun hnot =>
        hne (String.le_antisymm (String.not_lt.mp hnot) (String.not_lt.mp hlt))
      refine sorted_cons.mpr ⟨?_, ih hrest hnot⟩
      intro k hk
      obtain rfl | hk := mem_keys_insert hk
      · exact hsmaller
      · exact hfirst k hk

/-- A map in order stays in order. For a key that is there only the value changes, and a new key is
put at its place. -/
theorem put (h : Sorted m) (key : String) (a : α) : Sorted (put key a m) := by
  unfold Assoc.put
  cases hcontains : contains key m with
  | true =>
    show Sorted (replace key a m)
    rw [Sorted, keys_replace]
    exact h
  | false => exact h.insert a (not_mem_keys hcontains)

theorem erase (h : Sorted m) (key : String) : Sorted (erase key m) :=
  h.sublist (List.filter_sublist.map _)

theorem foldl_put (h : Sorted m) (pairs : List (String × α)) :
    Sorted (pairs.foldl (fun m entry => Assoc.put entry.1 entry.2 m) m) := by
  induction pairs generalizing m with
  | nil => exact h
  | cons entry pairs ih => exact ih (h.put entry.1 entry.2)

end Sorted

/-- **What is made of pairs is in order**, whatever their order was. It is why the members of an
object may be written in any order in a text, and come back in one. -/
theorem sorted_ofList (pairs : List (String × α)) : Sorted (ofList pairs) :=
  sorted_nil.foldl_put pairs

/-- A key behind all others is put at the end. With the next lemma this says what a reader does with
pairs that are written in order: it lines them up again. -/
theorem put_last {key : String} (a : α) (h : ∀ k ∈ keys m, k < key) :
    put key a m = m ++ [(key, a)] := by
  have hnew : key ∉ keys m := fun hmem => String.lt_irrefl key (h key hmem)
  rw [put, contains_eq_false hnew, if_neg Bool.false_ne_true]
  -- That the key is new has done its work; it would be in the way of the induction.
  clear hnew
  induction m with
  | nil => rfl
  | cons entry rest ih =>
    obtain ⟨first, b⟩ := entry
    have hfirst : first < key := h first List.mem_cons_self
    rw [insert, if_neg (String.lt_asymm hfirst), ih fun k hk => h k (List.mem_cons_of_mem _ hk)]
    rfl

/-- Pairs in order are lined up behind those that are there. The induction is on the pairs that are
left, and what it needs is that those already put are smaller than all of them. -/
theorem foldl_put_of_sorted (pairs : List (String × α)) {m : Assoc α} (h : Sorted (m ++ pairs)) :
    pairs.foldl (fun m entry => put entry.1 entry.2 m) m = m ++ pairs := by
  induction pairs generalizing m with
  | nil => simp
  | cons entry rest ih =>
    obtain ⟨key, a⟩ := entry
    have hlast : ∀ k ∈ keys m, k < key := by
      intro k hk
      rw [Sorted, keys, List.map_append, List.pairwise_append] at h
      exact h.2.2 k hk key List.mem_cons_self
    rw [List.foldl_cons, put_last a hlast, ih (by simpa using h)]
    simp

/-- **The pairs of a map in order are the map.** Without the order this fails in both ways: pairs
would come back in another order, and of two with one key only the last would. -/
theorem ofList_of_sorted (h : Sorted m) : ofList m = m :=
  foldl_put_of_sorted m (m := []) h

/-! ## What all entries have

A property of values that all entries have is kept by all operations whose new values have it. There
is no condition on the keys. -/

section

variable {P : α → Prop}

theorem forall_replace {key : String} {a : α} (h : ∀ entry ∈ m, P entry.2) (ha : P a) :
    ∀ entry ∈ replace key a m, P entry.2 := by
  induction m with
  | nil => exact h
  | cons entry rest ih =>
    obtain ⟨first, b⟩ := entry
    obtain ⟨hfirst, hrest⟩ := List.forall_mem_cons.mp h
    rw [replace]
    split
    · exact List.forall_mem_cons.mpr ⟨ha, hrest⟩
    · exact List.forall_mem_cons.mpr ⟨hfirst, ih hrest⟩

theorem forall_insert {key : String} {a : α} (h : ∀ entry ∈ m, P entry.2) (ha : P a) :
    ∀ entry ∈ insert key a m, P entry.2 := by
  induction m with
  | nil => exact List.forall_mem_cons.mpr ⟨ha, h⟩
  | cons entry rest ih =>
    obtain ⟨first, b⟩ := entry
    obtain ⟨hfirst, hrest⟩ := List.forall_mem_cons.mp h
    rw [insert]
    split
    · exact List.forall_mem_cons.mpr ⟨ha, h⟩
    · exact List.forall_mem_cons.mpr ⟨hfirst, ih hrest⟩

theorem forall_put {key : String} {a : α} (h : ∀ entry ∈ m, P entry.2) (ha : P a) :
    ∀ entry ∈ put key a m, P entry.2 := by
  unfold put
  split
  · exact forall_replace h ha
  · exact forall_insert h ha

theorem forall_erase (key : String) (h : ∀ entry ∈ m, P entry.2) :
    ∀ entry ∈ erase key m, P entry.2 :=
  fun entry hmem => h entry (List.mem_filter.mp hmem).1

theorem forall_ofList {pairs : List (String × α)} (h : ∀ entry ∈ pairs, P entry.2) :
    ∀ entry ∈ ofList pairs, P entry.2 := by
  -- an accumulator is needed, since the fold starts from a map that is not empty after its first
  -- pair
  suffices hfold : ∀ m : Assoc α, (∀ entry ∈ m, P entry.2) →
      ∀ entry ∈ pairs.foldl (fun m entry => put entry.1 entry.2 m) m, P entry.2 from
    hfold [] (List.forall_mem_nil _)
  induction pairs with
  | nil => exact fun _ hm => hm
  | cons entry pairs ih =>
    obtain ⟨hfirst, hrest⟩ := List.forall_mem_cons.mp h
    exact fun m hm => ih hrest _ (forall_put hm hfirst)

theorem of_get? {key : String} {a : α} (h : ∀ entry ∈ m, P entry.2)
    (ha : get? key m = some a) : P a :=
  h _ (mem_of_get? ha)

end

end Stepwise.Assoc
