import Stepwise.Json.Basic
import Stepwise.Proofs.Assoc

/-!
# JSON trees up to the order of members

A reader of a tree finds members by their names. What it gives for one tree it therefore gives for
every tree in which the same members are found, in whatever order they stand. `Carries` is this
relation. **A tree carries itself, and so does its form in key order**, which is the form that is
read back from its text; both need that no key occurs twice in an object.

The relation goes one way: the first tree may have members that the second lacks, since a reader
does not look at what it has no name for. Arrays are compared item by item, because their items are
read by position.

A theorem about a reader is then proved once, for all trees that carry the one that was written, and
both orders are instances of it (`Proofs/Codec`). The tag of a node is taken out of its members
before the fields are read, so it is also said here that dropping a key keeps what is found under
the others (`CarriesMembers.erase`).
-/

namespace Stepwise.Json

mutual

/-- All of the second tree is in the first. Members may stand in another order there, between
others. The recursion is on the second tree, which is the one that a writer made. -/
def Carries : Json → Json → Prop
  | j, .array items => ∃ own, j = .array own ∧ CarriesItems own items
  | j, .object members => ∃ own, j = .object own ∧ CarriesMembers own members
  | j, leaf => j = leaf

def CarriesItems : List Json → List Json → Prop
  | own, [] => own = []
  | own, k :: items => ∃ j rest, own = j :: rest ∧ Carries j k ∧ CarriesItems rest items

def CarriesMembers : List (String × Json) → List (String × Json) → Prop
  | _, [] => True
  | own, (key, k) :: members =>
    (∃ j, Assoc.get? key own = some j ∧ Carries j k) ∧ CarriesMembers own members

end

mutual

/-- No object in the tree has a key twice. With a key twice a tree would not even carry itself: only
one of the two members is found. -/
def Distinct : Json → Prop
  | .array items => DistinctItems items
  | .object members => (Assoc.keys members).Nodup ∧ DistinctMembers members
  | _ => True

def DistinctItems : List Json → Prop
  | [] => True
  | j :: rest => Distinct j ∧ DistinctItems rest

def DistinctMembers : List (String × Json) → Prop
  | [] => True
  | (_, j) :: rest => Distinct j ∧ DistinctMembers rest

end

mutual

/-- The tree with the members of every object in key order. -/
def sorted : Json → Json
  | .array items => .array (sortedItems items)
  | .object members => .ofMembers (sortedMembers members)
  | j => j

def sortedItems : List Json → List Json
  | [] => []
  | j :: rest => sorted j :: sortedItems rest

def sortedMembers : List (String × Json) → List (String × Json)
  | [] => []
  | (key, j) :: rest => (key, sorted j) :: sortedMembers rest

end

/-! ## A tree carries itself -/

/-- Null carries nothing but null, so a reader can tell an absent part by it. -/
theorem carries_null {k : Json} (h : Json.null.Carries k) : k = .null := by
  cases k with
  | array items =>
    obtain ⟨own, heq, -⟩ := h
    cases heq
  | object members =>
    obtain ⟨own, heq, -⟩ := h
    cases heq
  | null | bool | int | float | str => exact h.symm

mutual

theorem Distinct.carries : ∀ {j : Json}, j.Distinct → j.Carries j
  | .array _, h => ⟨_, rfl, DistinctItems.carries h⟩
  | .object _, h =>
    ⟨_, rfl, DistinctMembers.carries h.2 fun _ _ hmem => Assoc.get?_of_mem h.1 hmem⟩
  | .null, _ | .bool _, _ | .int _, _ | .float _, _ | .str _, _ => rfl

theorem DistinctItems.carries :
    ∀ {items : List Json}, DistinctItems items → CarriesItems items items
  | [], _ => rfl
  | _ :: _, h => ⟨_, _, rfl, h.1.carries, DistinctItems.carries h.2⟩

/-- The members are looked up in the whole object, and go through the recursion apart from it; so
that they are found is a hypothesis that stays the same while the list gets shorter. -/
theorem DistinctMembers.carries {own : List (String × Json)} :
    ∀ {members : List (String × Json)}, DistinctMembers members →
      (∀ key j, (key, j) ∈ members → Assoc.get? key own = some j) →
        CarriesMembers own members
  | [], _, _ => trivial
  | (_, _) :: _, h, found =>
    ⟨⟨_, found _ _ List.mem_cons_self, h.1.carries⟩,
      DistinctMembers.carries h.2 fun _ _ hmem => found _ _ (List.mem_cons_of_mem _ hmem)⟩

end

/-! ## Key order -/

theorem keys_sortedMembers (members : List (String × Json)) :
    Assoc.keys (sortedMembers members) = Assoc.keys members := by
  induction members with
  | nil => rfl
  | cons entry rest ih => exact congrArg (entry.1 :: ·) ih

theorem mem_sortedMembers {key : String} {j : Json} {members : List (String × Json)}
    (h : (key, j) ∈ members) : (key, j.sorted) ∈ sortedMembers members := by
  induction members with
  | nil => cases h
  | cons entry rest ih =>
    cases h with
    | head => exact List.mem_cons_self
    | tail _ hmem => exact List.mem_cons_of_mem _ (ih hmem)

mutual

/-- **A tree in key order carries the tree.** Putting the members in order neither loses one nor
changes what is found, as long as the keys are different. -/
theorem Distinct.sorted_carries : ∀ {j : Json}, j.Distinct → j.sorted.Carries j
  | .array _, h => ⟨_, rfl, DistinctItems.sorted_carries h⟩
  | .object members, h => by
    have distinct : (Assoc.keys (sortedMembers members)).Nodup := by
      rw [keys_sortedMembers]
      exact h.1
    exact ⟨_, rfl, DistinctMembers.sorted_carries h.2 fun _ _ hmem =>
      Assoc.get?_ofList_of_mem distinct (mem_sortedMembers hmem)⟩
  | .null, _ | .bool _, _ | .int _, _ | .float _, _ | .str _, _ => rfl

theorem DistinctItems.sorted_carries :
    ∀ {items : List Json}, DistinctItems items → CarriesItems (sortedItems items) items
  | [], _ => rfl
  | _ :: _, h => ⟨_, _, rfl, h.1.sorted_carries, DistinctItems.sorted_carries h.2⟩

theorem DistinctMembers.sorted_carries {own : List (String × Json)} :
    ∀ {members : List (String × Json)}, DistinctMembers members →
      (∀ key j, (key, j) ∈ members → Assoc.get? key own = some j.sorted) →
        CarriesMembers own members
  | [], _, _ => trivial
  | (_, _) :: _, h, found =>
    ⟨⟨_, found _ _ List.mem_cons_self, h.1.sorted_carries⟩,
      DistinctMembers.sorted_carries h.2 fun _ _ hmem => found _ _ (List.mem_cons_of_mem _ hmem)⟩

end

theorem member?_sorted_eq_none {key : String} {members : List (String × Json)}
    (h : key ∉ Assoc.keys members) : (Json.object members).sorted.member? key = none := by
  cases hget : Assoc.get? key (Assoc.ofList (sortedMembers members)) with
  | none => exact hget
  | some j =>
    have hkey := List.mem_map_of_mem (f := Prod.fst) (Assoc.mem_of_get?_ofList hget)
    rw [← keys_sortedMembers] at h
    exact absurd hkey h

/-! ## Members and depth

A reader has fuel for the depth of the tree it is given. The fields of a node are less deep than the
node, and this is where the fuel comes from. -/

theorem depth_le_of_get? {key : String} {j : Json} {members : List (String × Json)}
    (h : Assoc.get? key members = some j) : j.depth ≤ depthMembers members := by
  induction members with
  | nil => cases h
  | cons entry rest ih =>
    obtain ⟨first, k⟩ := entry
    rw [Assoc.get?] at h
    rw [depthMembers]
    split at h
    · cases h
      exact Nat.le_max_left _ _
    · exact Nat.le_trans (ih h) (Nat.le_max_right _ _)

theorem depthMembers_erase_le (key : String) (members : List (String × Json)) :
    depthMembers (Assoc.erase key members) ≤ depthMembers members := by
  induction members with
  | nil => exact Nat.le_refl _
  | cons entry rest ih =>
    obtain ⟨first, k⟩ := entry
    unfold Assoc.erase at ih ⊢
    rw [List.filter_cons]
    split
    · simp only [depthMembers]
      omega
    · simp only [depthMembers]
      omega

/-- What is looked for under other keys is found when one key is dropped. -/
theorem CarriesMembers.erase {key : String} {own members : List (String × Json)}
    (fresh : key ∉ Assoc.keys members) (h : CarriesMembers own members) :
    CarriesMembers (Assoc.erase key own) members := by
  induction members with
  | nil => trivial
  | cons entry rest ih =>
    obtain ⟨first, k⟩ := entry
    obtain ⟨⟨j, hget, hcarries⟩, hrest⟩ := h
    simp only [Assoc.keys, List.map_cons, List.mem_cons, not_or] at fresh
    exact ⟨⟨j, (Assoc.get?_erase_of_ne (Ne.symm fresh.1)).trans hget, hcarries⟩,
      ih fresh.2 hrest⟩

end Stepwise.Json
