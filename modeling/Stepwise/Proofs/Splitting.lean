import Stepwise.Builtin.Apply

/-!
# Parts and occurrences

Splitting and replacing both look for a separator from left to right, each with a walk of its own
that counts down the characters it has still to skip. `Occurrences` says where such a search stops,
by places of the whole text, and `Cuts` what lies between. **The walk cuts the text where the search
stops** (`cuts_parts`), from which everything follows that holds of the parts: they join to the text
again, none has the separator in it, and there is one more of them than there are occurrences.

Both relations are on lists of characters and know nothing of the walks. `Occurrences` has places
and no parts, and has one outcome (`Occurrences.unique`), so it can be taken for what an occurrence
is. `Cuts` has parts and no places, which is what the walk can be compared with step by step.

An empty separator is outside of this. A text is then cut into its characters, but a replacement is
put in front of the first of them and behind the last as well, so replacing is not joining. Joining
the parts with the separator still gives the text back, and `join_split` has no condition.
-/

namespace Stepwise.Text

/-! ## Searching and cutting -/

/-- `sep` stands at place `i` of the text. -/
def OccursAt (sep text : List Char) (i : Nat) : Prop := sep <+: text.drop i

/-- The places that a search from left to right stops at: the first occurrence from `start` on, and
then those from its end on. Occurrences that overlap one that was found are passed over. -/
inductive Occurrences (sep text : List Char) : Nat → List Nat → Prop
  | none {start : Nat} : (∀ i, start ≤ i → ¬ OccursAt sep text i) →
      Occurrences sep text start []
  | next {start i : Nat} {places : List Nat} : start ≤ i → OccursAt sep text i →
      (∀ j, start ≤ j → j < i → ¬ OccursAt sep text j) →
      Occurrences sep text (i + sep.length) places →
      Occurrences sep text start (i :: places)

theorem Occurrences.unique {sep text : List Char} {start : Nat} {places found : List Nat}
    (h : Occurrences sep text start places) (h' : Occurrences sep text start found) :
    found = places := by
  induction h generalizing found with
  | none absent =>
    cases h' with
    | none _ => rfl
    | next hle hat _ _ => exact absurd hat (absent _ hle)
  | @next start i places hle hat hfirst _ ih =>
    cases h' with
    | none absent => exact absurd hat (absent i hle)
    | @next _ i' found' hle' hat' hfirst' hrest' =>
      obtain hlt | rfl | hlt := Nat.lt_trichotomy i i'
      · exact absurd hat (hfirst' i hle hlt)
      · rw [ih hrest']
      · exact absurd hat' (hfirst i' hle' hlt)

/-- The text cut at the separator: what stands in front of the first occurrence, and the parts of
what follows it. In front of it the separator stands at no place, also not across its border. -/
inductive Cuts (sep : List Char) : List Char → List (List Char) → Prop
  | whole {text : List Char} : (∀ i, ¬ OccursAt sep text i) → Cuts sep text [text]
  | cut {before after : List Char} {parts : List (List Char)} :
      (∀ i < before.length, ¬ OccursAt sep (before ++ (sep ++ after)) i) →
      Cuts sep after parts → Cuts sep (before ++ (sep ++ after)) (before :: parts)

theorem OccursAt.lt_length {sep text : List Char} {i : Nat} (h : OccursAt sep text i)
    (hsep : sep ≠ []) : i < text.length := by
  have hle := h.length_le
  have hpos := List.length_pos_iff.mpr hsep
  rw [List.length_drop] at hle
  omega

theorem OccursAt.append {sep text : List Char} {i : Nat} (h : OccursAt sep text i)
    (hi : i < text.length) (more : List Char) : OccursAt sep (text ++ more) i := by
  rw [OccursAt, List.drop_append_of_le_length (Nat.le_of_lt hi)]
  exact h.trans (List.prefix_append _ more)

theorem occursAt_drop {sep text : List Char} {start i : Nat} (hi : start ≤ i) :
    OccursAt sep text i ↔ OccursAt sep (text.drop start) (i - start) := by
  rw [OccursAt, OccursAt, List.drop_drop, Nat.add_sub_cancel' hi]

theorem infix_iff_occursAt {sep text : List Char} :
    sep <:+: text ↔ ∃ i, OccursAt sep text i := by
  rw [List.infix_iff_prefix_suffix]
  constructor
  · rintro ⟨rest, hprefix, hsuffix⟩
    rw [List.suffix_iff_eq_drop.mp hsuffix] at hprefix
    exact ⟨_, hprefix⟩
  · rintro ⟨i, hat⟩
    exact ⟨text.drop i, hat, List.drop_suffix i text⟩

namespace Cuts

variable {sep text : List Char} {parts : List (List Char)}

theorem ne_nil (h : Cuts sep text parts) : parts ≠ [] := by
  cases h with
  | whole _ => exact List.cons_ne_nil _ _
  | cut _ _ => exact List.cons_ne_nil _ _

theorem intercalate (h : Cuts sep text parts) : sep.intercalate parts = text := by
  induction h with
  | whole _ => exact List.intercalate_singleton
  | cut _ rest ih => rw [List.intercalate_cons_of_ne_nil rest.ne_nil, ih, List.append_assoc]

theorem separated (h : Cuts sep text parts) (hsep : sep ≠ []) :
    ∀ part ∈ parts, ¬ sep <:+: part := by
  induction h with
  | whole absent =>
    intro part hpart
    rw [List.mem_singleton.mp hpart, infix_iff_occursAt]
    rintro ⟨i, hat⟩
    exact absent i hat
  | @cut before after parts hfirst _ ih =>
    intro part hpart hinfix
    obtain rfl | hpart := List.mem_cons.mp hpart
    · -- an occurrence inside of the part in front would have been found before
      obtain ⟨i, hat⟩ := infix_iff_occursAt.mp hinfix
      have hi := hat.lt_length hsep
      exact hfirst i hi (hat.append hi _)
    · exact ih part hpart hinfix

theorem cons {c : Char} (h : Cuts sep text parts) (hc : ¬ sep <+: c :: text) :
    Cuts sep (c :: text) (consFirst c parts) := by
  cases h with
  | whole absent =>
    refine .whole fun i => ?_
    cases i with
    | zero => exact hc
    | succ i => exact absent i
  | @cut before after parts hfirst rest =>
    have hnone : ∀ i < (c :: before).length,
        ¬ OccursAt sep (c :: before ++ (sep ++ after)) i := by
      intro i hi
      cases i with
      | zero => exact hc
      | succ i => exact hfirst i (Nat.lt_of_succ_lt_succ hi)
    exact .cut hnone rest

end Cuts

/-! ## The two walks -/

/-- **The walk cuts the text where the search stops.** The induction is that of the walk. With
characters still to be skipped it is about the text behind them. -/
theorem cuts_parts {sep : List Char} (hsep : sep ≠ []) (skip : Nat) (text : List Char) :
    Cuts sep (text.drop skip) (parts sep skip text) := by
  fun_induction parts sep skip text with
  | case1 skip =>
    rw [List.drop_nil]
    refine .whole fun i hat => ?_
    exact Nat.not_lt_zero i (hat.lt_length hsep)
  | case2 c rest skip ih => exact ih
  | case3 c rest hprefix ih =>
    obtain ⟨after, hafter⟩ := List.isPrefixOf_iff_prefix.mp hprefix
    -- what is skipped is the separator without the character that has been read already
    have hrest : rest.drop (sep.length - 1) = after := by
      cases sep with
      | nil => exact absurd rfl hsep
      | cons d ds =>
        obtain ⟨-, rfl⟩ := List.cons.inj hafter
        exact List.drop_left
    rw [hrest] at ih
    have hcut : Cuts sep ([] ++ (sep ++ after)) ([] :: parts sep (sep.length - 1) rest) :=
      .cut (fun i hi => absurd hi (Nat.not_lt_zero i)) ih
    rwa [List.nil_append, hafter] at hcut
  | case4 c rest hprefix ih => exact ih.cons (mt List.isPrefixOf_iff_prefix.mpr hprefix)

/-- The places between the parts are those that the search stops at. The text that is cut is what is
left of the whole one, so places are counted from its start. -/
theorem Cuts.occurrences {sep text whole : List Char} {parts : List (List Char)}
    (h : Cuts sep text parts) (start : Nat) (htext : whole.drop start = text) :
    ∃ places, Occurrences sep whole start places ∧ parts.length = places.length + 1 := by
  induction h generalizing start with
  | whole absent =>
    refine ⟨[], .none fun i hi => ?_, rfl⟩
    rw [occursAt_drop hi, htext]
    exact absent _
  | @cut before after parts hfirst _ ih =>
    have hafter : whole.drop (start + before.length + sep.length) = after := by
      rw [Nat.add_assoc, ← List.drop_drop, htext, ← List.append_assoc, ← List.length_append,
        List.drop_left]
    obtain ⟨places, hplaces, hlength⟩ := ih _ hafter
    refine ⟨(start + before.length) :: places, .next (Nat.le_add_right _ _) ?_ ?_ hplaces, ?_⟩
    · rw [occursAt_drop (Nat.le_add_right _ _), htext, Nat.add_sub_cancel_left, OccursAt,
        List.drop_left]
      exact List.prefix_append sep after
    · intro j hj hlt
      rw [occursAt_drop hj, htext]
      exact hfirst (j - start) (by omega)
    · rw [List.length_cons, List.length_cons, hlength]

theorem intercalate_consFirst (sep : List Char) (c : Char) {parts : List (List Char)}
    (h : parts ≠ []) :
    sep.intercalate (consFirst c parts) = c :: sep.intercalate parts := by
  cases parts with
  | nil => exact absurd rfl h
  | cons part parts => exact List.intercalate_cons_cons_left

/-- **Replacing puts the new text between the parts.** Both walks make the same steps, so the
induction is the one for parts. -/
theorem replaceFrom_eq {old : List Char} (hold : old ≠ []) (new : List Char) (skip : Nat)
    (text : List Char) :
    replaceFrom old new skip text = new.intercalate (parts old skip text) := by
  fun_induction parts old skip text with
  | case1 skip => rw [replaceFrom, List.intercalate_singleton]
  | case2 c rest skip ih => rw [replaceFrom, ih]
  | case3 c rest hprefix ih =>
    rw [replaceFrom, if_pos hprefix, List.intercalate_cons_of_ne_nil (cuts_parts hold _ _).ne_nil,
      List.nil_append, ih]
  | case4 c rest hprefix ih =>
    rw [replaceFrom, if_neg hprefix, intercalate_consFirst new c (cuts_parts hold _ _).ne_nil, ih]

/-! ## Strings -/

theorem map_toList_ofList (parts : List (List Char)) :
    (parts.map String.ofList).map String.toList = parts := by
  simp [Function.comp_def]

theorem map_toList_split (t : String) {s : String} (hs : s ≠ "") :
    (split t s).map String.toList = parts s.toList 0 t.toList := by
  rw [split, if_neg (mt String.isEmpty_iff.mp hs), map_toList_ofList]

theorem toList_ne_nil {s : String} (hs : s ≠ "") : s.toList ≠ [] :=
  mt String.toList_eq_nil_iff.mp hs

theorem cuts_split (t : String) {s : String} (hs : s ≠ "") :
    Cuts s.toList t.toList ((split t s).map String.toList) := by
  rw [map_toList_split t hs]
  exact cuts_parts (toList_ne_nil hs) 0 t.toList

theorem intercalate_singletons (cs : List Char) :
    List.intercalate [] (cs.map fun c => [c]) = cs := by
  induction cs with
  | nil => rfl
  | cons c cs ih =>
    cases cs with
    | nil => rfl
    | cons d cs =>
      have hmore : (d :: cs).map (fun c => [c]) ≠ [] := List.cons_ne_nil _ _
      rw [List.map_cons, List.intercalate_cons_of_ne_nil hmore, ih]
      rfl

/-- **Joining the parts of a text gives the text**, also when it is cut into its characters. -/
theorem join_split (t s : String) : join (split t s) s = t := by
  rw [join]
  by_cases hs : s = ""
  · have hparts : (split t s).map String.toList = t.toList.map fun c => [c] := by
      rw [split, if_pos (String.isEmpty_iff.mpr hs), List.map_map]
      simp [Function.comp_def]
    have hsep : s.toList = [] := String.toList_eq_nil_iff.mpr hs
    rw [hparts, hsep, intercalate_singletons, String.ofList_toList]
  · rw [(cuts_split t hs).intercalate, String.ofList_toList]

theorem replace_eq_join_split (t : String) {s : String} (hs : s ≠ "") (r : String) :
    replace t s r = join (split t s) r := by
  rw [replace, if_neg (mt String.isEmpty_iff.mp hs), replaceFrom_eq (toList_ne_nil hs), join,
    map_toList_split t hs]

end Stepwise.Text

namespace Stepwise.Builtin

open Text (Occurrences)

/-- An array of strings. -/
def texts (parts : List String) : Value := .array (parts.map .str)

theorem apply_join (clock : String) (parts : List String) (sep : String) :
    apply clock .join [texts parts, .str sep] = .ok (.str (Text.join parts sep)) := by
  have hitems : (parts.map Value.str).map Value.text = parts := by
    rw [List.map_map]
    exact List.map_id parts
  show Except.ok (Value.str (Text.join ((parts.map Value.str).map Value.text) sep)) = _
  rw [hitems]

/-- **Splitting, joining and replacing agree**, and what lies between the parts are the occurrences
that a search from left to right finds. -/
theorem split_join_replace (clock t s r : String) :
    ∃ parts : List String,
      apply clock .split [.str t, .str s] = .ok (texts parts) ∧
      apply clock .join [texts parts, .str s] = .ok (.str t) ∧
      (s ≠ "" →
        (∃ u, apply clock .replace [.str t, .str s, .str r] = .ok (.str u) ∧
          apply clock .join [texts parts, .str r] = .ok (.str u)) ∧
        (∀ part ∈ parts, ¬ s.toList <:+: part.toList) ∧
        ∃ places, (∀ found, Occurrences s.toList t.toList 0 found ↔ found = places) ∧
          parts.length = places.length + 1) := by
  refine ⟨Text.split t s, rfl, ?_, fun hs => ⟨⟨Text.replace t s r, rfl, ?_⟩, ?_, ?_⟩⟩
  · rw [apply_join, Text.join_split]
  · rw [apply_join, Text.replace_eq_join_split t hs]
  · intro part hpart
    exact (Text.cuts_split t hs).separated (Text.toList_ne_nil hs) _ (List.mem_map_of_mem hpart)
  · obtain ⟨places, hplaces, hlength⟩ := (Text.cuts_split t hs).occurrences 0 rfl
    refine ⟨places, fun found => ⟨hplaces.unique, ?_⟩, by rwa [List.length_map] at hlength⟩
    rintro rfl
    exact hplaces

theorem texts_injective {parts parts' : List String} (h : texts parts = texts parts') :
    parts = parts' := by
  refine (List.map_inj_right ?_).mp (Value.array.inj h)
  exact fun a b => Value.str.inj

/-- The separator stands at the very front, and in a run of three characters that it fits into at
two places, of which only the first is an occurrence. -/
theorem split_join_replace_overlapping :
    "éé" ≠ "" ∧
      apply "" .replace [.str "ééaééé", .str "éé", .str "-"] = .ok (.str "-a-é") ∧
      ∃ places,
        (∀ found, Occurrences "éé".toList "ééaééé".toList 0 found ↔ found = places) ∧
        places.length = 2 := by
  have hs : "éé" ≠ "" := by decide
  obtain ⟨parts, hsplit, -, hparts⟩ := split_join_replace "" "ééaééé" "éé" "-"
  obtain ⟨⟨u, hreplace, hjoin⟩, -, places, hplaces, hlength⟩ := hparts hs
  obtain rfl : parts = ["", "a", "é"] := by
    refine texts_injective ((Except.ok.inj hsplit).symm.trans ?_)
    exact congrArg texts (by decide)
  refine ⟨hs, ?_, places, hplaces, (Nat.succ.inj hlength).symm⟩
  rw [hreplace, ← hjoin, apply_join]
  exact congrArg (Except.ok ∘ Value.str) (by decide)

end Stepwise.Builtin
