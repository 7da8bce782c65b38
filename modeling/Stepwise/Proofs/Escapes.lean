import Stepwise.Text.Escape

/-!
# What escapes stand for

Whether a backslash starts an escape or is the second half of one depends on how many stand directly
in front of it. `EscapeAt` says it by counting them, and the decoder never counts: it takes an
escape apart where it meets it. **The two agree** on what is not recognised (`mem_unknown_iff`). Raw
text may be cut wherever the backslashes in front of the cut come in pairs, and decoding the two
halves decodes the whole (`decode_append`). `Spells` has the ways to write a text down, and what
decodes to a text without complaint is just these (`spells_iff`).

The three descriptions do not mention each other. `Spells` goes along the text that is meant,
`EscapeAt` looks at one place of the raw text, and the decoder reads the raw text from the left. All
proofs meet in one induction, over the pieces in which raw text is read (`pieces_induction`); it has
a case for a backslash at the very end, which neither of the other two needs.

An escape that is not recognised is kept as it is and reported. It is not an error, so a text with
such escapes is decoded to something as well, and the last theorem says to what.
-/

namespace Stepwise.Text

/-! ## Ways to write a text -/

/-- The characters that may stand behind a backslash, each with the one that the two stand for. -/
def escapes : List (Char × Char) :=
  [('n', '\n'), ('t', '\t'), ('r', '\r'), ('0', Char.ofNat 0), ('\\', '\\'), ('"', '"'),
    ('\'', '\'')]

/-- `Spells raw text`: each character of `text` is written as its escape or, unless it is a
backslash, as itself. A line break may be written either way, so a text is spelled in many ways. -/
inductive Spells : List Char → List Char → Prop
  | nil : Spells [] []
  | raw {c : Char} {raw text : List Char} :
      c ≠ '\\' → Spells raw text → Spells (c :: raw) (c :: text)
  | escape {mark c : Char} {raw text : List Char} :
    (mark, c) ∈ escapes → Spells raw text → Spells ('\\' :: mark :: raw) (c :: text)

/-! ## Where escapes start -/

/-- How many backslashes stand at the end. -/
def trailing (cs : List Char) : Nat := (cs.reverse.takeWhile (· = '\\')).length

/-- The backslashes at the end come in pairs, so none of them waits for the next character. -/
def Paired (cs : List Char) : Prop := trailing cs % 2 = 0

instance (cs : List Char) : Decidable (Paired cs) :=
  inferInstanceAs (Decidable (trailing cs % 2 = 0))

/-- A backslash that starts an escape stands between `before` and `after`. -/
def EscapeAt (raw before after : List Char) : Prop :=
  raw = before ++ '\\' :: after ∧ Paired before

/-- What follows the backslash begins with one of the characters that may. Nothing begins so at the
end of the text. -/
def Known (after : List Char) : Prop := ∃ mark ∈ escapes.map (·.1), after.head? = some mark

/-- An escape that is not recognised: its backslash, with the character behind it if there is
one. -/
def Unrecognised (raw sequence : List Char) : Prop :=
  ∃ before after, EscapeAt raw before after ∧ ¬ Known after ∧ sequence = '\\' :: after.take 1

theorem trailing_le (cs : List Char) : trailing cs ≤ cs.length := by
  have hle := (List.takeWhile_sublist (· = '\\') (l := cs.reverse)).length_le
  rwa [List.length_reverse] at hle

/-- A character in front is counted only if there is nothing but backslashes behind it. -/
theorem trailing_cons (c : Char) (cs : List Char) :
    trailing (c :: cs) = if trailing cs = cs.length ∧ c = '\\' then trailing cs + 1
    else trailing cs := by
  unfold trailing
  rw [List.reverse_cons, List.takeWhile_append, List.length_reverse]
  by_cases hall : (cs.reverse.takeWhile (· = '\\')).length = cs.length
  · by_cases hc : c = '\\'
    · simp [hall, hc]
    · simp [hall, hc]
  · simp [hall]

theorem paired_raw {c : Char} (hc : c ≠ '\\') (cs : List Char) :
    Paired (c :: cs) ↔ Paired cs := by
  rw [Paired, trailing_cons, if_neg fun h => hc h.2, Paired]

/-- An escape in front makes no difference, whatever it escapes. If all of the text is backslashes,
the count goes up by two. -/
theorem paired_escape (mark : Char) (cs : List Char) : Paired ('\\' :: mark :: cs) ↔
    Paired cs := by
  have hle := trailing_le cs
  have hmark := trailing_cons mark cs
  have hslash := trailing_cons '\\' (mark :: cs)
  rw [List.length_cons] at hslash
  unfold Paired
  by_cases hall : trailing cs = cs.length ∧ mark = '\\'
  · rw [if_pos hall] at hmark
    rw [if_pos ⟨by omega, rfl⟩] at hslash
    omega
  · rw [if_neg hall] at hmark
    rw [if_neg fun h => by omega] at hslash
    omega

theorem not_paired_lone : ¬ Paired ['\\'] := by decide

theorem paired_nil : Paired [] := by decide

/-- Raw text is read in pieces: a plain character, or a backslash with the character behind it,
which only the last one may lack. Dropping one character from nothing leaves nothing, so the two
cases of a backslash are one. -/
@[elab_as_elim]
theorem pieces_induction {motive : List Char → Prop} (nil : motive [])
    (raw : ∀ c cs, c ≠ '\\' → motive cs → motive (c :: cs))
    (escape : ∀ after, motive (after.drop 1) → motive ('\\' :: after)) : ∀ cs, motive cs
  | [] => nil
  | c :: cs =>
    if hc : c = '\\' then
      match cs with
      | [] => hc ▸ escape [] nil
      | mark :: cs => hc ▸ escape (mark :: cs) (pieces_induction nil raw escape cs)
    else raw c cs hc (pieces_induction nil raw escape cs)

/-- A plain character starts no escape, and those behind it start where they started without it. -/
theorem escapeAt_raw {c : Char} (hc : c ≠ '\\') {cs before after : List Char} :
    EscapeAt (c :: cs) before after ↔
      ∃ rest, before = c :: rest ∧ EscapeAt cs rest after := by
  constructor
  · rintro ⟨hraw, hpaired⟩
    cases before with
    | nil => exact absurd (List.cons.inj hraw).1 hc
    | cons b rest =>
      obtain ⟨rfl, hcs⟩ := List.cons.inj hraw
      exact ⟨rest, rfl, hcs, (paired_raw hc rest).mp hpaired⟩
  · rintro ⟨rest, rfl, rfl, hpaired⟩
    exact ⟨rfl, (paired_raw hc rest).mpr hpaired⟩

theorem escapeAt_escape {cs before after : List Char} :
    EscapeAt ('\\' :: cs) before after ↔ before = [] ∧ after = cs ∨
      ∃ rest, before = '\\' :: (cs.take 1 ++ rest) ∧ EscapeAt (cs.drop 1) rest after := by
  constructor
  · rintro ⟨hraw, hpaired⟩
    match before with
    | [] => exact .inl ⟨rfl, (List.cons.inj hraw).2.symm⟩
    -- the second half of an escape has one backslash in front of it, which is no pair
    | [b] =>
      obtain ⟨rfl, -⟩ := List.cons.inj hraw
      exact absurd hpaired not_paired_lone
    | b :: mark :: rest =>
      obtain ⟨rfl, rfl⟩ := List.cons.inj hraw
      exact .inr ⟨rest, rfl, rfl, (paired_escape mark rest).mp hpaired⟩
  · rintro (⟨rfl, rfl⟩ | ⟨rest, rfl, hrest, hpaired⟩)
    · exact ⟨rfl, paired_nil⟩
    · cases cs with
      | nil => simp at hrest
      | cons mark cs =>
        obtain rfl : cs = rest ++ '\\' :: after := hrest
        exact ⟨rfl, (paired_escape mark rest).mpr hpaired⟩

theorem unrecognised_raw {c : Char} (hc : c ≠ '\\') {cs sequence : List Char} :
    Unrecognised (c :: cs) sequence ↔ Unrecognised cs sequence := by
  constructor
  · rintro ⟨before, after, hat, hsequence⟩
    obtain ⟨rest, -, hrest⟩ := (escapeAt_raw hc).mp hat
    exact ⟨rest, after, hrest, hsequence⟩
  · rintro ⟨before, after, hat, hsequence⟩
    exact ⟨c :: before, after, (escapeAt_raw hc).mpr ⟨before, rfl, hat⟩, hsequence⟩

theorem unrecognised_escape {cs sequence : List Char} :
    Unrecognised ('\\' :: cs) sequence ↔
      ¬ Known cs ∧ sequence = '\\' :: cs.take 1 ∨ Unrecognised (cs.drop 1) sequence := by
  constructor
  · rintro ⟨before, after, hat, hsequence⟩
    obtain ⟨rfl, rfl⟩ | ⟨rest, -, hrest⟩ := escapeAt_escape.mp hat
    · exact .inl hsequence
    · exact .inr ⟨rest, after, hrest, hsequence⟩
  · rintro (hfirst | ⟨before, after, hat, hsequence⟩)
    · exact ⟨[], cs, escapeAt_escape.mpr (.inl ⟨rfl, rfl⟩), hfirst⟩
    · exact ⟨_, after, escapeAt_escape.mpr (.inr ⟨before, rfl, hat⟩), hsequence⟩

/-! ## The decoder -/

namespace Decoded

/-- One decoded text behind another. -/
def append (d e : Decoded) : Decoded := ⟨d.text ++ e.text, d.unknown ++ e.unknown⟩

theorem push_append (c : Char) (d e : Decoded) : (d.push c).append e = (d.append e).push c := rfl

theorem reject_append (sequence : List Char) (d e : Decoded) :
    (d.reject sequence).append e = (d.append e).reject sequence := by
  simp [reject, append]

end Decoded

/-- The table has the same entries as the function of the decoder. It is written down apart from it,
so that `Spells` can be read without the decoder. -/
theorem escape?_eq_some_iff {mark c : Char} : escape? mark = some c ↔ (mark, c) ∈ escapes := by
  constructor
  · intro h
    unfold escape? at h
    repeat' split at h
    all_goals simp_all [escapes, eq_comm]
  · have hall : ∀ entry ∈ escapes, escape? entry.1 = some entry.2 := by decide
    exact hall (mark, c)

theorem known_iff {after : List Char} :
    Known after ↔ ∃ mark cs c, after = mark :: cs ∧ escape? mark = some c := by
  constructor
  · rintro ⟨mark, hmark, hhead⟩
    obtain ⟨⟨_, c⟩, hmem, rfl⟩ := List.mem_map.mp hmark
    obtain ⟨cs, rfl⟩ := List.head?_eq_some_iff.mp hhead
    exact ⟨_, cs, c, rfl, escape?_eq_some_iff.mpr hmem⟩
  · rintro ⟨mark, cs, c, rfl, hmark⟩
    exact ⟨mark, List.mem_map.mpr ⟨_, escape?_eq_some_iff.mp hmark, rfl⟩, rfl⟩

theorem decode_raw {c : Char} (hc : c ≠ '\\') (cs : List Char) :
    decode (c :: cs) = (decode cs).push c := by
  cases cs with
  | nil => simp [decode, hc, Decoded.push]
  | cons d cs => rw [decode, if_neg hc]

theorem decode_known {mark c : Char} (hmark : escape? mark = some c) (cs : List Char) :
    decode ('\\' :: mark :: cs) = (decode cs).push c := by
  simp [decode, hmark]

theorem decode_unknown {mark : Char} (hmark : escape? mark = none) (cs : List Char) :
    decode ('\\' :: mark :: cs) = (decode cs).reject ['\\', mark] := by
  simp [decode, hmark]

/-- An escape that is not recognised is kept, also one that lacks its second half. -/
theorem decode_of_not_known {after : List Char} (h : ¬ Known after) :
    decode ('\\' :: after) = (decode (after.drop 1)).reject ('\\' :: after.take 1) := by
  cases after with
  | nil => rfl
  | cons mark cs =>
    cases hmark : escape? mark with
    | none => exact decode_unknown hmark cs
    | some c => exact absurd (known_iff.mpr ⟨mark, cs, c, rfl, hmark⟩) h

/-- **Raw text may be cut where no backslash waits for the next character.** Cut anywhere else, a
backslash would be reported that is the first half of an escape. -/
theorem decode_append {raw : List Char} (paired : Paired raw) (more : List Char) :
    decode (raw ++ more) = (decode raw).append (decode more) := by
  induction raw using pieces_induction with
  | nil => rfl
  | raw c cs hc ih =>
    rw [List.cons_append, decode_raw hc, decode_raw hc, ih ((paired_raw hc cs).mp paired),
      Decoded.push_append]
  | escape after ih =>
    cases after with
    | nil => exact absurd paired not_paired_lone
    | cons mark cs =>
      have hrest : decode (cs ++ more) = (decode cs).append (decode more) :=
        ih ((paired_escape mark cs).mp paired)
      rw [List.cons_append, List.cons_append]
      cases hmark : escape? mark with
      | some c => rw [decode_known hmark, decode_known hmark, hrest, Decoded.push_append]
      | none => rw [decode_unknown hmark, decode_unknown hmark, hrest, Decoded.reject_append]

/-- **What is reported are the escapes that are not recognised.** On the left is what the decoder
met on its way, on the right a place in the text with an even number of backslashes in front. -/
theorem mem_unknown_iff {raw sequence : List Char} :
    sequence ∈ (decode raw).unknown ↔ Unrecognised raw sequence := by
  induction raw using pieces_induction with
  | nil => simp [decode, Unrecognised, EscapeAt]
  | raw c cs hc ih =>
    rw [unrecognised_raw hc, decode_raw hc]
    exact ih
  | escape cs ih =>
    rw [unrecognised_escape]
    by_cases known : Known cs
    · obtain ⟨mark, cs, c, rfl, hmark⟩ := known_iff.mp known
      rw [decode_known hmark, or_iff_right fun h => h.1 known]
      exact ih
    · rw [decode_of_not_known known, ← ih, and_iff_right known]
      exact List.mem_cons

theorem unknown_eq_nil_iff {raw : List Char} :
    (decode raw).unknown = [] ↔ ∀ before after, EscapeAt raw before after → Known after := by
  simp only [List.eq_nil_iff_forall_not_mem, mem_unknown_iff]
  constructor
  · intro h before after hat
    refine Classical.byContradiction fun unknown => ?_
    exact h _ ⟨before, after, hat, unknown, rfl⟩
  · rintro h sequence ⟨before, after, hat, unknown, -⟩
    exact unknown (h before after hat)

/-- Each escape that is not recognised stands in the decoded text as it was written, at its own
place. -/
theorem Unrecognised.decode {raw sequence : List Char} (h : Unrecognised raw sequence) :
    ∃ before after, raw = before ++ sequence ++ after ∧ Paired before ∧
      Text.decode raw = (Text.decode before).append ((Text.decode after).reject sequence) := by
  obtain ⟨before, after, ⟨rfl, paired⟩, unknown, rfl⟩ := h
  refine ⟨before, after.drop 1, ?_, paired, ?_⟩
  · rw [List.append_assoc, List.cons_append, List.take_append_drop]
  · rw [decode_append paired, decode_of_not_known unknown]

/-- **What decodes to a text without complaint is a way to write it**, and the other way round. One
direction is by induction over the way to write, the other over the pieces of the raw text. -/
theorem spells_iff {raw text : List Char} : Spells raw text ↔ decode raw = ⟨text, []⟩ := by
  constructor
  · intro h
    induction h with
    | nil => rfl
    | raw hc _ ih => rw [decode_raw hc, ih, Decoded.push]
    | escape hmem _ ih => rw [decode_known (escape?_eq_some_iff.mpr hmem), ih, Decoded.push]
  · intro h
    induction raw using pieces_induction generalizing text with
    | nil =>
      cases h
      exact .nil
    | raw c cs hc ih =>
      rw [decode_raw hc, Decoded.push, Decoded.mk.injEq] at h
      obtain ⟨rfl, hunknown⟩ := h
      exact .raw hc (ih (by rw [← hunknown]))
    | escape after ih =>
      by_cases known : Known after
      · obtain ⟨mark, cs, c, rfl, hmark⟩ := known_iff.mp known
        rw [decode_known hmark, Decoded.push, Decoded.mk.injEq] at h
        obtain ⟨rfl, hunknown⟩ := h
        exact .escape (escape?_eq_some_iff.mp hmark) (ih (by rw [← hunknown]; rfl))
      · rw [decode_of_not_known known] at h
        cases congrArg Decoded.unknown h

/-! ## Strings -/

theorem decodeEscapes_plain_iff {raw text : String} :
    decodeEscapes raw = (text, []) ↔ decode raw.toList = ⟨text.toList, []⟩ := by
  simp only [decodeEscapes, Prod.mk.injEq, List.map_eq_nil_iff]
  constructor
  · rintro ⟨rfl, hunknown⟩
    rw [String.toList_ofList, ← hunknown]
  · intro h
    rw [h, String.ofList_toList]
    exact ⟨rfl, rfl⟩

/-- **Escapes are decoded exactly.** What decodes to a text without complaint are the ways to write
it; raw text is decoded half by half; a complaint is an escape that is not recognised, which is left
as it is. -/
theorem decodeEscapes_exact (raw more text : String) :
    (decodeEscapes raw = (text, []) ↔ Spells raw.toList text.toList) ∧
    (Paired raw.toList → decodeEscapes (raw ++ more) =
      ((decodeEscapes raw).1 ++ (decodeEscapes more).1,
        (decodeEscapes raw).2 ++ (decodeEscapes more).2)) ∧
    ((decodeEscapes raw).2 = [] ↔ ∀ before after, EscapeAt raw.toList before after →
      Known after) ∧
    ∀ sequence ∈ (decodeEscapes raw).2, ∃ before after, raw = before ++ sequence ++ after ∧
      Paired before.toList ∧ decodeEscapes raw =
        ((decodeEscapes before).1 ++ sequence ++ (decodeEscapes after).1,
          (decodeEscapes before).2 ++ sequence :: (decodeEscapes after).2) := by
  refine ⟨?spelled, ?halves, ?complaints, ?verbatim⟩
  case spelled => rw [decodeEscapes_plain_iff, spells_iff]
  case halves =>
    intro paired
    simp only [decodeEscapes, String.toList_append, decode_append paired, Decoded.append,
      String.ofList_append, List.map_append]
  case complaints => rw [decodeEscapes, List.map_eq_nil_iff, unknown_eq_nil_iff]
  case verbatim =>
    intro sequence hmem
    obtain ⟨cs, hcs, rfl⟩ := List.mem_map.mp hmem
    obtain ⟨before, after, hraw, paired, hdecode⟩ := (mem_unknown_iff.mp hcs).decode
    refine ⟨String.ofList before, String.ofList after, ?_, ?_, ?_⟩
    · rw [← String.ofList_append, ← String.ofList_append, ← hraw, String.ofList_toList]
    · rwa [String.toList_ofList]
    · simp only [decodeEscapes, hdecode, Decoded.append, Decoded.reject, String.toList_ofList,
        String.ofList_append, String.append_assoc, List.map_append, List.map_cons]

/-- Every escape once, beside characters that stand for themselves, with a pair of backslashes at
the end. -/
def allEscapes : String := "\"tab\t\\n\\t\\r\\0\\\"\\'é\\\\"

/-- What stands behind the pair starts no escape. Of the two that follow neither is recognised, and
the second has no character. -/
theorem decodeEscapes_exact_mixed :
    Paired allEscapes.toList ∧ Spells allEscapes.toList "\"tab\t\n\t\r\x00\"'é\\".toList ∧
      decodeEscapes (allEscapes ++ "n\\q\\") =
        ("\"tab\t\n\t\r\x00\"'é\\n\\q\\", ["\\q", "\\"]) := by
  have paired : Paired allEscapes.toList := by decide
  have hexact := decodeEscapes_exact allEscapes "n\\q\\" "\"tab\t\n\t\r\x00\"'é\\"
  refine ⟨paired, hexact.1.mp (by decide), ?_⟩
  rw [hexact.2.1 paired]
  decide

end Stepwise.Text
