import Stepwise.Proofs.JsonText
import Stepwise.Value.Tagged

/-!
# Tagged values are read back

The tagged form of a value says of every part of what kind it is, so that an error is not taken for
a struct with the same fields, and keys of a struct never meet the tags because they stand inside of
the content. **Reading the tagged form gives the value** (`ofTaggedWithin_toTagged`), hence no two
values share one. In the text of the form the numbers alone are in question, and its depth.

The two halves ask for different things. For the tree it is enough that numbers are finite and that
fields are in key order, which the structs of a run are (`Proofs/OrderedRuns`). For the text each
number has to be read as the double it was written from, and the tree must not be deeper than the
reader goes. `LeafReads` is this condition on a single number. It is decidable, and not shown here
for all doubles; `Proofs/JsonNumbers` says why it carries over from a number alone to its place in a
text.

The text is read with the members of objects as they are written. In a tagged form they are written
in key order, so that this and the other way to read objects come to the same.
-/

namespace Stepwise.Value

/-! ## Values that can be stored -/

/-- What a part of a value must be for the tagged form to hold it: a number that is not finite has
no form of its own. That fields are in key order is part of being a struct. -/
def Storable : Value → Prop
  | .num x => x.isFinite = true
  | .struct fields => Assoc.Sorted fields
  | _ => True

instance : DecidablePred Storable
  | .num x => inferInstanceAs (Decidable (x.isFinite = true))
  | .struct fields => inferInstanceAs (Decidable (Assoc.Sorted fields))
  | .null | .bool _ | .str _ | .array _ | .error _ => inferInstanceAs (Decidable True)

/-! ## Reading the tree -/

theorem depth_tag (kind : String) (content : Json) :
    (tag kind content).depth = content.depth + 1 := by
  simp [tag, Json.depth, Json.depthMembers]

theorem tagParts?_tag (kind : String) (content : Json) :
    tagParts? (tag kind content) = some ⟨.str kind, some content, false⟩ := by
  simp [tag, tagParts?, only?]

theorem errorOfJson?_fields (info : ErrorInfo) :
    errorOfJson? (.object [("code", .str info.code), ("message", .str info.message)]) =
      some info := by
  simp [errorOfJson?, only?]

section

variable {fuel : Nat}

theorem ofTaggedWithin_num {x : Float} (finite : x.isFinite = true) :
    ofTaggedWithin (fuel + 1) false (toTagged (.num x)) = some (.num x) := by
  simp [toTagged, finite, ofTaggedWithin, tagParts?_tag, kind?, numOfJson?]

theorem ofTaggedWithin_array {js : List Json} {items : List Value}
    (h : js.mapM (ofTaggedWithin fuel false) = some items) :
    ofTaggedWithin (fuel + 1) false (tag "Array" (.array js)) = some (.array items) := by
  simp [ofTaggedWithin, tagParts?_tag, kind?, h]

/-- The fields of a struct are read from the members, and are in order already, so putting them in
order changes nothing. -/
theorem ofTaggedWithin_struct {members : List (String × Json)} {fields : List (String × Value)}
    (h : (members.mapM fun entry => (ofTaggedWithin fuel false entry.2).map fun v => (entry.1, v)) =
      some fields)
    (sorted : Assoc.Sorted fields) :
    ofTaggedWithin (fuel + 1) false (tag "Struct" (.object members)) = some (.struct fields) := by
  simp [ofTaggedWithin, tagParts?_tag, kind?, h, Assoc.ofList_of_sorted sorted]

end

mutual

/-- **Reading the tagged form of a value gives the value.** The reader has fuel for a depth, and the
induction is on the value; an array or a struct is two levels of the tree. -/
theorem ofTaggedWithin_toTagged (v : Value) (storable : ∀ p ∈ v.parts, p.Storable) (fuel : Nat)
    (hfuel : v.toTagged.depth < fuel) : ofTaggedWithin fuel false v.toTagged = some v := by
  obtain ⟨fuel, rfl⟩ : ∃ n, fuel = n + 1 := ⟨fuel - 1, by omega⟩
  match v with
  | .null => simp [toTagged, ofTaggedWithin, tagParts?, only?, kind?]
  | .bool b => simp [toTagged, ofTaggedWithin, tagParts?_tag, kind?]
  | .num x => exact ofTaggedWithin_num (storable (.num x) (by simp [parts]))
  | .str s => simp [toTagged, ofTaggedWithin, tagParts?_tag, kind?]
  | .array items =>
    rw [toTagged, depth_tag, Json.depth] at hfuel
    refine ofTaggedWithin_array ?_
    exact mapM_toTaggedItems items (fun p hp => storable p (by simp [parts, hp])) fuel (by omega)
  | .struct fields =>
    rw [toTagged, depth_tag, Json.depth] at hfuel
    refine ofTaggedWithin_struct ?_ (storable (.struct fields) (by simp [parts]))
    exact mapM_toTaggedFields fields (fun p hp => storable p (by simp [parts, hp])) fuel (by omega)
  | .error info => simp [toTagged, ofTaggedWithin, tagParts?_tag, kind?, errorOfJson?_fields]

theorem mapM_toTaggedItems (vs : List Value) (storable : ∀ p ∈ partsItems vs, p.Storable)
    (fuel : Nat) (hfuel : Json.depthItems (toTaggedItems vs) < fuel) :
    (toTaggedItems vs).mapM (ofTaggedWithin fuel false) = some vs := by
  match vs with
  | [] => rfl
  | v :: vs =>
    simp only [toTaggedItems, Json.depthItems] at hfuel
    have hv :=
      ofTaggedWithin_toTagged v (fun p hp => storable p (by simp [partsItems, hp])) fuel (by omega)
    have hvs :=
      mapM_toTaggedItems vs (fun p hp => storable p (by simp [partsItems, hp])) fuel (by omega)
    simp [toTaggedItems, hv, hvs]

theorem mapM_toTaggedFields (fs : List (String × Value))
    (storable : ∀ p ∈ partsFields fs, p.Storable) (fuel : Nat)
    (hfuel : Json.depthMembers (toTaggedFields fs) < fuel) :
    ((toTaggedFields fs).mapM fun entry =>
      (ofTaggedWithin fuel false entry.2).map fun v => (entry.1, v)) = some fs := by
  match fs with
  | [] => rfl
  | (key, v) :: fs =>
    simp only [toTaggedFields, Json.depthMembers] at hfuel
    have hv :=
      ofTaggedWithin_toTagged v (fun p hp => storable p (by simp [partsFields, hp])) fuel (by omega)
    have hvs :=
      mapM_toTaggedFields fs (fun p hp => storable p (by simp [partsFields, hp])) fuel (by omega)
    simp [toTaggedFields, hv, hvs]

end

/-- There is fuel for every tree that a value is written as. -/
theorem ofTagged?_toTagged (v : Value) (storable : ∀ p ∈ v.parts, p.Storable) :
    ofTagged? v.toTagged = some v :=
  ofTaggedWithin_toTagged v storable _ (Nat.lt_succ_self _)

/-- No two values have one tagged form, since reading it gives back either of them. -/
theorem eq_of_toTagged {v w : Value} (hv : ∀ p ∈ v.parts, p.Storable)
    (hw : ∀ p ∈ w.parts, p.Storable) (h : w.toTagged = v.toTagged) : w = v := by
  have hread := ofTagged?_toTagged w hw
  rw [h, ofTagged?_toTagged v hv] at hread
  exact (Option.some.inj hread).symm

/-! ## Reading the text -/

/-- The double that a JSON leaf is. -/
def leaf? : Json → Option Float
  | .float x => some x
  | _ => none

/-- A number is written as a double, and its text is read as the same double. Parts that are no
numbers are read as they are. -/
def LeafReads : Value → Prop
  | .num x => (Json.parse (Json.float x).render).toOption.bind leaf? = some x
  | _ => True

instance : DecidablePred LeafReads
  | .num x =>
    inferInstanceAs (Decidable ((Json.parse (Json.float x).render).toOption.bind leaf? = some x))
  | .null | .bool _ | .str _ | .array _ | .struct _ | .error _ => inferInstanceAs (Decidable True)

theorem LeafReads.parse {x : Float} (h : LeafReads (.num x)) :
    Json.parse (Json.float x).render = .ok (.float x) := by
  have hleaf : (Json.parse (Json.float x).render).toOption.bind leaf? = some x := h
  cases hparse : Json.parse (Json.float x).render with
  | error e =>
    rw [hparse] at hleaf
    cases hleaf
  | ok j =>
    rw [hparse] at hleaf
    cases j with
    | float y =>
      obtain rfl : y = x := Option.some.inj hleaf
      rfl
    | _ => cases hleaf

/-- The text of the tree is read as the tree itself: it can be read at all, and nothing in it is
read as something else. -/
def Unchanged (j : Json) : Prop := j.Legible ∧ j.reread = j

theorem unchanged_tag (kind : String) {content : Json} (h : Unchanged content) :
    Unchanged (tag kind content) := by
  have hsorted : Assoc.Sorted [("t", Json.str kind), ("v", content)] := by
    show ["t", "v"].Pairwise (· < ·)
    decide
  refine ⟨⟨hsorted, trivial, h.1, trivial⟩, ?_⟩
  simp [tag, Json.reread, Json.rereadMembers, h.2]

theorem unchanged_null : Unchanged (toTagged .null) := by
  have hsorted : Assoc.Sorted [("t", Json.str "Null")] := List.pairwise_singleton _ _
  exact ⟨⟨hsorted, trivial, trivial⟩, rfl⟩

theorem unchanged_num {x : Float} (finite : x.isFinite = true) (reads : LeafReads (.num x)) :
    Unchanged (toTagged (.num x)) := by
  rw [toTagged, if_pos finite]
  exact unchanged_tag "Num" (Json.legible_number rfl rfl reads.parse)

theorem unchanged_error (info : ErrorInfo) : Unchanged (toTagged (.error info)) := by
  have hsorted : Assoc.Sorted [("code", Json.str info.code),
      ("message", Json.str info.message)] := by
    show ["code", "message"].Pairwise (· < ·)
    decide
  exact unchanged_tag "Error" ⟨⟨hsorted, trivial, trivial, trivial⟩, rfl⟩

theorem keys_toTaggedFields (fields : List (String × Value)) :
    Assoc.keys (toTaggedFields fields) = Assoc.keys fields := by
  induction fields with
  | nil => rfl
  | cons field fields ih =>
    obtain ⟨key, v⟩ := field
    exact congrArg (key :: ·) ih

mutual

/-- It is so for the whole form if it is for the numbers. The keys of a struct are those of the
value, and in order as they are there. -/
theorem unchanged_toTagged (v : Value) (h : ∀ p ∈ v.parts, p.Storable ∧ p.LeafReads) :
    Unchanged v.toTagged := by
  match v with
  | .null => exact unchanged_null
  | .bool b => exact unchanged_tag "Bool" ⟨trivial, rfl⟩
  | .num x =>
    obtain ⟨finite, reads⟩ := h (.num x) (by simp [parts])
    exact unchanged_num finite reads
  | .str s => exact unchanged_tag "Str" ⟨trivial, rfl⟩
  | .array items =>
    obtain ⟨hlegible, hreread⟩ := unchanged_toTaggedItems items fun p hp =>
      h p (by simp [parts, hp])
    exact unchanged_tag "Array" ⟨hlegible, congrArg Json.array hreread⟩
  | .struct fields =>
    obtain ⟨hlegible, hreread⟩ := unchanged_toTaggedFields fields fun p hp =>
      h p (by simp [parts, hp])
    have hsorted : Assoc.Sorted (toTaggedFields fields) := by
      rw [Assoc.Sorted, keys_toTaggedFields]
      exact (h (.struct fields) (by simp [parts])).1
    exact unchanged_tag "Struct" ⟨⟨hsorted, hlegible⟩, congrArg Json.object hreread⟩
  | .error info => exact unchanged_error info

theorem unchanged_toTaggedItems (vs : List Value)
    (h : ∀ p ∈ partsItems vs, p.Storable ∧ p.LeafReads) :
    Json.LegibleItems (toTaggedItems vs) ∧
      Json.rereadItems (toTaggedItems vs) = toTaggedItems vs := by
  match vs with
  | [] => exact ⟨trivial, rfl⟩
  | v :: vs =>
    obtain ⟨hfirst, hv⟩ := unchanged_toTagged v fun p hp => h p (by simp [partsItems, hp])
    obtain ⟨hrest, hvs⟩ := unchanged_toTaggedItems vs fun p hp => h p (by simp [partsItems, hp])
    exact ⟨⟨hfirst, hrest⟩, by rw [toTaggedItems, Json.rereadItems, hv, hvs]⟩

theorem unchanged_toTaggedFields (fs : List (String × Value))
    (h : ∀ p ∈ partsFields fs, p.Storable ∧ p.LeafReads) :
    Json.LegibleMembers (toTaggedFields fs) ∧
      Json.rereadMembers (toTaggedFields fs) = toTaggedFields fs := by
  match fs with
  | [] => exact ⟨trivial, rfl⟩
  | (key, v) :: fs =>
    obtain ⟨hfirst, hv⟩ := unchanged_toTagged v fun p hp => h p (by simp [partsFields, hp])
    obtain ⟨hrest, hvs⟩ := unchanged_toTaggedFields fs fun p hp =>
      h p (by simp [partsFields, hp])
    exact ⟨⟨hfirst, hrest⟩, by rw [toTaggedFields, Json.rereadMembers, hv, hvs]⟩

end

theorem ofTaggedText?_render {v : Value} (storable : ∀ p ∈ v.parts, p.Storable)
    (reads : ∀ p ∈ v.parts, p.LeafReads) (shallow : v.toTagged.depth ≤ Json.maxDepth) :
    ofTaggedText? v.toTagged.render = some v := by
  obtain ⟨hlegible, hreread⟩ := unchanged_toTagged v fun p hp => ⟨storable p hp, reads p hp⟩
  have hparse : Json.parseRaw v.toTagged.render = .ok v.toTagged := by
    rw [Json.parseRaw, Json.parseWith_render Json.keeps_object v.toTagged hlegible shallow, hreread]
  rw [ofTaggedText?, hparse]
  exact ofTagged?_toTagged v storable

/-- **Tagged forms lose nothing.** The tree is read as the value it was made of, no other value has
the same tree, and the text is read as the value too where its numbers are and it is not too deep
for the reader. -/
theorem tagged_lossless (v : Value) (storable : ∀ p ∈ v.parts, p.Storable) :
    ofTagged? v.toTagged = some v ∧
    (∀ w : Value, (∀ p ∈ w.parts, p.Storable) → w.toTagged = v.toTagged → w = v) ∧
    ((∀ p ∈ v.parts, p.LeafReads) → v.toTagged.depth ≤ Json.maxDepth →
      ofTaggedText? v.toTagged.render = some v) :=
  ⟨ofTagged?_toTagged v storable, fun _ hw => eq_of_toTagged storable hw,
    ofTaggedText?_render storable⟩

/-- A struct with the fields of an error. -/
def lookalike : Value := .struct [("code", .str "E1"), ("message", .str "lost")]

/-- Keys that are spelled like tags, an error beside the struct that looks like it, and numbers of
all sizes with negative zero among them. -/
def disguised : Value :=
  .struct
    [("", .null),
      ("Null", .array [.error ⟨"E1", "lost"⟩, lookalike, .array [], .struct []]),
      ("code", .array [.num (-0.0), .num 3.0, .num 0.1, .num 1e300, .num 5e-324]),
      ("message", .str "\x7b\"t\":\"Null\"\x7d"),
      ("t", .struct [("t", .str "Num"), ("v", .num 1.5)]),
      ("v", .bool false)]

theorem tagged_lossless_disguised :
    (∀ p ∈ disguised.parts, p.Storable) ∧ (∀ p ∈ disguised.parts, p.LeafReads) ∧
      disguised.toTagged.depth ≤ Json.maxDepth ∧
      ofTagged? disguised.toTagged = some disguised ∧
      ofTaggedText? disguised.toTagged.render = some disguised ∧
      (Value.error ⟨"E1", "lost"⟩).toTagged ≠ lookalike.toTagged := by
  have storable : ∀ p ∈ disguised.parts, p.Storable := by decide +kernel
  have reads : ∀ p ∈ disguised.parts, p.LeafReads := by decide +kernel
  have shallow : disguised.toTagged.depth ≤ Json.maxDepth := by decide +kernel
  have hlookalike : ∀ p ∈ lookalike.parts, p.Storable := by decide +kernel
  have herror : ∀ p ∈ (Value.error ⟨"E1", "lost"⟩).parts, p.Storable := by decide
  obtain ⟨htree, -, htext⟩ := tagged_lossless disguised storable
  refine ⟨storable, reads, shallow, htree, htext reads shallow, fun heq => ?_⟩
  cases (tagged_lossless lookalike hlookalike).2.1 _ herror heq

end Stepwise.Value
