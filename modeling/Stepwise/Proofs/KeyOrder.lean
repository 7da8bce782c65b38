import Stepwise.Proofs.Closed
import Stepwise.Proofs.TaggedValues

/-!
# Fields are in key order

A struct is the list of its fields, and that its keys increase is not part of the type. It is part
of every way to come by a struct: fields are put into one with `Assoc.put`, and trees are read with
`Assoc.ofList`, both of which keep the order. `Value.Ordered` says so of a value and of everything
in it. This module follows the order through

* readers: what is read from JSON text is in order (`Json.parse_ordered`), and so is the value of
  any tree in tagged form (`Value.ofTagged?_ordered`), whatever the order of its members;
* operators, fields, elements, built-ins and assignments, which take parts of values, put them into
  arrays and structs, and read JSON: order is a closed property (`Value.Ordered.closed`), and
  `Proofs/Closed` has what follows from that.

So the one side condition on structs that reading back has (`Value.Survives`, `Value.Storable`)
holds of all of these, and what is left to ask is about numbers and errors
(`Value.Ordered.storable`, `Value.Ordered.survives`).
-/

namespace Stepwise

/-! ## Values in order -/

/-- The fields of every struct in a value are in key order. It is an inductive predicate, so that an
induction over it has a hypothesis for each item and field at once. -/
inductive Value.Ordered : Value → Prop where
  | null : Ordered .null
  | bool (b : Bool) : Ordered (.bool b)
  | num (x : Float) : Ordered (.num x)
  | str (s : String) : Ordered (.str s)
  | error (info : ErrorInfo) : Ordered (.error info)
  | array {items : List Value} (h : ∀ v ∈ items, Ordered v) : Ordered (.array items)
  | struct {fields : List (String × Value)} (sorted : Assoc.Sorted fields)
      (h : ∀ field ∈ fields, Ordered field.2) : Ordered (.struct fields)

namespace Value.Ordered

variable {v : Value} {vs : List Value} {fs : List (String × Value)}

theorem items (h : (Value.array vs).Ordered) : ∀ v ∈ vs, v.Ordered := by
  cases h with
  | array h => exact h

theorem sorted (h : (Value.struct fs).Ordered) : Assoc.Sorted fs := by
  cases h with
  | struct sorted _ => exact sorted

theorem fields (h : (Value.struct fs).Ordered) : ∀ field ∈ fs, field.2.Ordered := by
  cases h with
  | struct _ h => exact h

/-- A field that is put into a struct comes to its place. A struct that grows field by field from an
empty one is therefore in order. -/
theorem put (h : (Value.struct fs).Ordered) (name : String) (hv : v.Ordered) :
    (Value.struct (Assoc.put name v fs)).Ordered :=
  .struct (h.sorted.put name v) (Assoc.forall_put h.fields hv)

end Value.Ordered

/-! ## The sides of reading back

Reading back asks something of every part of a value, in one condition. Here it is split into what
holds of all values that a run comes by, and what does not. -/

namespace Value

theorem mem_partsItems {p : Value} {items : List Value} (h : p ∈ partsItems items) :
    ∃ v ∈ items, p ∈ v.parts := by
  induction items with
  | nil => cases h
  | cons v rest ih =>
    obtain hfirst | hrest := List.mem_append.mp h
    · exact ⟨v, List.mem_cons_self, hfirst⟩
    · obtain ⟨w, hw, hp⟩ := ih hrest
      exact ⟨w, List.mem_cons_of_mem _ hw, hp⟩

theorem mem_partsFields {p : Value} {fields : List (String × Value)}
    (h : p ∈ partsFields fields) :
    ∃ field ∈ fields, p ∈ field.2.parts := by
  induction fields with
  | nil => cases h
  | cons field rest ih =>
    obtain ⟨name, v⟩ := field
    obtain hfirst | hrest := List.mem_append.mp h
    · exact ⟨(name, v), List.mem_cons_self, hfirst⟩
    · obtain ⟨w, hw, hp⟩ := ih hrest
      exact ⟨w, List.mem_cons_of_mem _ hw, hp⟩

namespace Ordered

variable {v : Value}

theorem part (h : v.Ordered) {p : Value} (hp : p ∈ v.parts) : p.Ordered := by
  induction h with
  | null | bool | num | str | error =>
    rw [parts] at hp
    · obtain rfl := List.mem_singleton.mp hp
      constructor
    all_goals exact nofun
  | @array items h ih =>
    obtain rfl | hp := List.mem_cons.mp hp
    · exact .array h
    · obtain ⟨v, hv, hp⟩ := mem_partsItems hp
      exact ih v hv hp
  | @struct fields sorted h ih =>
    obtain rfl | hp := List.mem_cons.mp hp
    · exact .struct sorted h
    · obtain ⟨field, hfield, hp⟩ := mem_partsFields hp
      exact ih field hfield hp

/-- What the tagged form asks of a value in order is that its numbers are finite. -/
theorem storable (h : v.Ordered) (finite : ∀ x, .num x ∈ v.parts → x.isFinite = true) :
    ∀ p ∈ v.parts, p.Storable := by
  intro p hp
  cases p with
  | num x => exact finite x hp
  | struct fields => exact (h.part hp).sorted
  | null | bool | str | array | error => trivial

/-- What JSON text asks of a value in order is that its numbers are read back, and that no error is
in it. -/
theorem survives (h : v.Ordered) (numbers : ∀ x, .num x ∈ v.parts → ReadsBack x)
    (errors : ∀ info, .error info ∉ v.parts) : ∀ p ∈ v.parts, p.Survives := by
  intro p hp
  cases p with
  | num x => exact numbers x hp
  | struct fields => exact (h.part hp).sorted
  | error info => exact errors info hp
  | null | bool | str | array => trivial

end Ordered

end Value

/-! ## Trees -/

/-- The members of every object in a tree are in key order. -/
inductive Json.Ordered : Json → Prop where
  | null : Ordered .null
  | bool (b : Bool) : Ordered (.bool b)
  | int (n : Int) : Ordered (.int n)
  | float (x : Float) : Ordered (.float x)
  | str (s : String) : Ordered (.str s)
  | array {items : List Json} (h : ∀ j ∈ items, Ordered j) : Ordered (.array items)
  | object {members : List (String × Json)} (sorted : Assoc.Sorted members)
      (h : ∀ member ∈ members, Ordered member.2) : Ordered (.object members)

namespace Json

/-! ### Collecting members -/

theorem ordered_ofMembers {members : List (String × Json)}
    (h : ∀ member ∈ members, member.2.Ordered) :
    (ofMembers members).Ordered :=
  .object (Assoc.sorted_ofList members) (Assoc.forall_ofList h)

/-! ### Reading

`Reads P` says that what a reader gives, if it gives anything, has a property. -/

/-- What the reader gives, if it gives anything, has the property. There is nothing to show where it
fails. -/
def Reads {α : Type} (P : α → Prop) (r : Except ParseError (α × Cursor)) : Prop :=
  ∀ a cur, r = .ok (a, cur) → P a

section

variable {α : Type} {P : α → Prop} {cur : Cursor}

theorem Reads.error (e : ParseError) : Reads P (.error e) := nofun

theorem Reads.fail (cause : ParseCause) : Reads P (cur.fail cause) := .error _

theorem Reads.failNext (cause : ParseCause) : Reads P (cur.failNext cause) := .error _

theorem Reads.ok {a : α} (h : P a) : Reads P (.ok (a, cur)) := by
  rintro b cur' ⟨⟩
  exact h

end

/-! Numbers have no members. -/

theorem wholeNumber_ordered (negative : Bool) (word : Nat) :
    (wholeNumber negative word).Ordered := by
  unfold wholeNumber
  split
  · split
    · exact .float _
    · exact .int _
  · exact .int _

theorem ofParts_ordered (negative : Bool) (word : Nat) (exp : Int) (cur : Cursor) :
    Reads Ordered (ofParts negative word exp cur) := by
  unfold ofParts
  split
  · exact .ok (.float _)
  · exact .fail _

theorem exponentPart_ordered (negative : Bool) (word : Nat) (start : Int) (cur : Cursor) :
    Reads Ordered (exponentPart negative word start cur) := by
  unfold exponentPart
  dsimp only
  split
  · exact .fail _
  · split
    · split
      · exact ofParts_ordered _ _ _ _
      · split
        all_goals
          split
          · exact .fail _
          · exact .ok (.float _)
    · exact .failNext _

theorem afterDigits_ordered (negative : Bool) (word : Nat) (exp : Int) (cur : Cursor) :
    Reads Ordered (afterDigits negative word exp cur) := by
  unfold afterDigits
  split
  · exact exponentPart_ordered _ _ _ _
  · exact exponentPart_ordered _ _ _ _
  · exact ofParts_ordered _ _ _ _

theorem fractionPart_ordered (negative : Bool) (word : Nat) (exp : Int) (cur : Cursor) :
    Reads Ordered (fractionPart negative word exp cur) := by
  unfold fractionPart
  dsimp only
  split
  · split
    · exact .failNext _
    · exact .fail _
  · exact afterDigits_ordered _ _ _ _

theorem number_ordered (negative : Bool) (cur : Cursor) : Reads Ordered (number negative cur) := by
  unfold number
  split
  · exact .fail _
  split
  · split
    · exact fractionPart_ordered _ _ _ _
    · exact exponentPart_ordered _ _ _ _
    · exact exponentPart_ordered _ _ _ _
    · split
      · exact .failNext _
      · exact .ok (wholeNumber_ordered _ _)
    · exact .ok (wholeNumber_ordered _ _)
  · split
    · dsimp only
      split
      · exact fractionPart_ordered _ _ _ _
      · exact exponentPart_ordered _ _ _ _
      · exact exponentPart_ordered _ _ _ _
      · split
        · exact .ok (wholeNumber_ordered _ _)
        · exact ofParts_ordered _ _ _ _
    · exact .failNext _

theorem ident_ordered {j : Json} (h : j.Ordered) (word : List Char) (cur : Cursor) :
    Reads Ordered (ident j word cur) := by
  induction word generalizing cur with
  | nil => exact .ok h
  | cons c rest ih =>
    unfold ident
    split
    · exact .fail _
    · split
      · exact ih _
      · exact .failNext _

/-- What makes an object of its members leaves them in order. `Assoc.ofList` does, and the reader
that keeps the order of the text does not. -/
def Orders (build : List (String × Json) → Json) : Prop :=
  ∀ members, (∀ member ∈ members, member.2.Ordered) → (build members).Ordered

mutual

/-- The reader of values. It fails or gives what one of its parts gives; the cases are those of the
character it starts with. -/
theorem value_ordered {build : List (String × Json) → Json} (builds : Orders build)
    (fuel depth : Nat) (cur : Cursor) : Reads Ordered (value build fuel depth cur) := by
  match fuel with
  | 0 => exact .fail _
  | fuel + 1 =>
    unfold value
    dsimp only
    split
    · exact .fail _
    split
    · exact ident_ordered .null _ _
    split
    · exact ident_ordered (.bool true) _ _
    split
    · exact ident_ordered (.bool false) _ _
    split
    · exact number_ordered _ _
    split
    · exact number_ordered _ _
    split
    · split
      · exact .ok (.str _)
      · exact .error _
    split
    -- arrays and objects are one level deeper, up to the depth that the reader goes to
    · split
      · exact .failNext _
      · exact items_ordered builds fuel (depth + 1) true [] _ (List.forall_mem_nil _)
    split
    · split
      · exact .failNext _
      · exact members_ordered builds fuel (depth + 1) true [] _ (List.forall_mem_nil _)
    · exact .failNext _

theorem items_ordered {build : List (String × Json) → Json} (builds : Orders build)
    (fuel depth : Nat) (first : Bool) (acc : List Json) (cur : Cursor)
    (hacc : ∀ j ∈ acc, j.Ordered) :
    Reads Ordered (items build fuel depth first acc cur) := by
  match fuel with
  | 0 => exact .fail _
  | fuel + 1 =>
    have more : ∀ {cur cur' : Cursor} {j : Json}, value build fuel depth cur = .ok (j, cur') →
        Reads Ordered (items build fuel depth false (j :: acc) cur') := by
      intro cur cur' j hvalue
      have hj := value_ordered builds fuel depth cur j cur' hvalue
      exact items_ordered builds fuel depth false (j :: acc) cur'
        (List.forall_mem_cons.mpr ⟨hj, hacc⟩)
    unfold items
    dsimp only
    split
    · exact .fail _
    split
    · exact .ok (.array fun j hj => hacc j (List.mem_reverse.mp hj))
    -- in front of the first item and behind a comma one more is read, and all other ways fail
    repeat' split
    all_goals first | exact .fail _ | exact .failNext _ | exact .error _ | exact more ‹_›

theorem members_ordered {build : List (String × Json) → Json} (builds : Orders build)
    (fuel depth : Nat) (first : Bool) (acc : List (String × Json)) (cur : Cursor)
    (hacc : ∀ member ∈ acc, member.2.Ordered) :
    Reads Ordered (members build fuel depth first acc cur) := by
  match fuel with
  | 0 => exact .fail _
  | fuel + 1 =>
    have more : ∀ {cur cur' : Cursor} {j : Json} {key : String},
        value build fuel depth cur = .ok (j, cur') →
        Reads Ordered (members build fuel depth false ((key, j) :: acc) cur') := by
      intro cur cur' j key hvalue
      have hj := value_ordered builds fuel depth cur j cur' hvalue
      exact members_ordered builds fuel depth false ((key, j) :: acc) cur'
        (List.forall_mem_cons.mpr ⟨hj, hacc⟩)
    unfold members
    dsimp only
    split
    · exact .fail _
    split
    · exact .ok (builds _ fun member hmember => hacc member (List.mem_reverse.mp hmember))
    -- as for items: a key, a colon and a value, or a failure
    repeat' split
    all_goals first | exact .fail _ | exact .failNext _ | exact .error _ | exact more ‹_›

end

theorem parseWith_ordered {build : List (String × Json) → Json} (builds : Orders build)
    {s : String} {j : Json} (h : parseWith build s = .ok j) : j.Ordered := by
  unfold parseWith at h
  dsimp only at h
  split at h
  · cases h
  · rename_i j' cur hvalue
    split at h
    · cases h
      exact value_ordered builds _ _ _ _ _ hvalue
    · cases h

/-- **What is read from a text is in key order**, in whatever order it is written. -/
theorem parse_ordered {s : String} {j : Json} (h : parse s = .ok j) : j.Ordered :=
  parseWith_ordered (fun _ hmembers => ordered_ofMembers hmembers) h

end Json

/-! ## Values of trees -/

namespace Value

theorem mem_ofJsonItems {v : Value} {js : List Json} (h : v ∈ ofJsonItems js) :
    ∃ j ∈ js, v = ofJson j := by
  induction js with
  | nil => cases h
  | cons j rest ih =>
    obtain rfl | hrest := List.mem_cons.mp h
    · exact ⟨j, List.mem_cons_self, rfl⟩
    · obtain ⟨j', hj', hv⟩ := ih hrest
      exact ⟨j', List.mem_cons_of_mem _ hj', hv⟩

theorem mem_ofJsonMembers {field : String × Value} {members : List (String × Json)}
    (h : field ∈ ofJsonMembers members) :
    ∃ member ∈ members, field = (member.1, ofJson member.2) := by
  induction members with
  | nil => cases h
  | cons member rest ih =>
    obtain ⟨key, j⟩ := member
    obtain rfl | hrest := List.mem_cons.mp h
    · exact ⟨(key, j), List.mem_cons_self, rfl⟩
    · obtain ⟨member', hmember', hfield⟩ := ih hrest
      exact ⟨member', List.mem_cons_of_mem _ hmember', hfield⟩

theorem keys_ofJsonMembers (members : List (String × Json)) :
    Assoc.keys (ofJsonMembers members) = Assoc.keys members := by
  induction members with
  | nil => rfl
  | cons member rest ih =>
    obtain ⟨key, j⟩ := member
    exact congrArg (key :: ·) ih

theorem ofJson_ordered {j : Json} (h : j.Ordered) : (ofJson j).Ordered := by
  induction h with
  | null => exact .null
  | bool b => exact .bool b
  | int n => exact .num _
  | float x => exact .num x
  | str s => exact .str s
  | @array items _ ih =>
    refine .array fun v hv => ?_
    obtain ⟨j, hj, rfl⟩ := mem_ofJsonItems hv
    exact ih j hj
  | @object members sorted _ ih =>
    refine .struct ?_ fun field hfield => ?_
    · rw [Assoc.Sorted, keys_ofJsonMembers]
      exact sorted
    · obtain ⟨member, hmember, rfl⟩ := mem_ofJsonMembers hfield
      exact ih member hmember

theorem forall_of_mapM {α β : Type} {f : α → Option β} {P : β → Prop}
    (hf : ∀ a b, f a = some b → P b) {as : List α} {bs : List β} (h : as.mapM f = some bs) :
    ∀ b ∈ bs, P b := by
  induction as generalizing bs with
  | nil =>
    cases h
    exact List.forall_mem_nil _
  | cons a as ih =>
    simp only [List.mapM_cons, Option.pure_def, Option.bind_eq_bind, Option.bind_eq_some_iff] at h
    obtain ⟨b, hb, bs', hbs, heq⟩ := h
    cases heq
    exact List.forall_mem_cons.mpr ⟨hf a b hb, ih hbs⟩

/-- Tagged trees need not be in order themselves. The fields of a struct are collected by
`Assoc.ofList`, and this is enough. -/
theorem ofTaggedWithin_ordered (fuel : Nat) (numbered : Bool) (j : Json) {v : Value}
    (h : ofTaggedWithin fuel numbered j = some v) : v.Ordered := by
  induction fuel generalizing numbered j v with
  | zero => cases h
  | succ fuel ih =>
    unfold ofTaggedWithin at h
    split at h
    · cases h
    dsimp only at h
    split at h
    · cases h
      exact .null
    · cases h
      exact .null
    · cases h
      exact .bool _
    · obtain ⟨x, -, rfl⟩ := Option.map_eq_some_iff.mp h
      exact .num x
    · cases h
      exact .str _
    · obtain ⟨items, hitems, rfl⟩ := Option.map_eq_some_iff.mp h
      exact .array (forall_of_mapM (fun j v hv => ih _ j hv) hitems)
    · obtain ⟨fields, hfields, rfl⟩ := Option.map_eq_some_iff.mp h
      -- the order is made here, so nothing is asked of the tree
      refine .struct (Assoc.sorted_ofList fields) (Assoc.forall_ofList ?_)
      refine forall_of_mapM (P := fun field => field.2.Ordered)
        (fun member field hfield => ?_) hfields
      obtain ⟨v, hv, rfl⟩ := Option.map_eq_some_iff.mp hfield
      exact ih _ member.2 hv
    · obtain ⟨info, -, rfl⟩ := Option.map_eq_some_iff.mp h
      exact .error info
    · cases h

/-- **What is read from a tagged tree is in key order**, whatever the tree. -/
theorem ofTagged?_ordered {j : Json} {v : Value} (h : ofTagged? j = some v) : v.Ordered :=
  ofTaggedWithin_ordered _ _ j h

/-- **Order is a closed property.** Nothing that a script does to values puts the fields of a struct
out of order. -/
theorem Ordered.closed : Closed Ordered where
  null := .null
  bool := .bool
  num := .num
  str := .str
  error := .error
  array := .array
  items := .items
  empty := .struct Assoc.sorted_nil (List.forall_mem_nil _)
  fields := .fields
  put h name _ hv := h.put name hv
  parsed h := ofJson_ordered (Json.parse_ordered h)

end Value

end Stepwise
