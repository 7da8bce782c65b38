import Stepwise.Builtin.Apply
import Stepwise.Proofs.Assoc
import Stepwise.Proofs.JsonNumbers

/-!
# The text of a value is read as the value

The text of a tree is read as the tree, whatever follows it that no number goes on with. Only
numbers may come back as others; `reread` is the tree with every number as its own text is read.
**Writing a value as JSON text and reading the text gives an equal value** as soon as each of its
numbers alone is read back, so what can go wrong in the text of a value are its numbers and its
depth, and nothing else.

## How the reader is followed

`Takes` says what a reader does with a text that stands in front of another: it takes exactly this
text and leaves the other. Readers of parts are put together by it, and every kind of value has a
lemma for what its first character decides. A number ends where something follows that it cannot go
on with, so all of this is for rests with `Stops`; commas, brackets and the end of the text are
such.

Readers have fuel, and a limit to their depth. Fuel is no restriction: the length of the text is
always enough, as each round takes a character, and the entry point gives more than that. The limit
is one. A tree that is nested deeper is refused, so its depth is a hypothesis up to the last
theorem.

Members have to be in key order, as those of a struct are. Reading collects them in that order, and
a tree that is written in another would not come back the same. The reader is also used with another
way to make an object, which keeps the order of the text; `Keeps` is what both have in common, and
`Proofs/TaggedValues` uses the second.
-/

namespace Stepwise

namespace Json

/-! ## Readers and cursors -/

/-- The reader takes exactly `text` from the front of what it is given, and makes `a` of it. Where
the cursor stands is only for the texts of errors, so it is left open. -/
def Takes {α : Type} (read : Cursor → Except ParseError (α × Cursor)) (text rest : List Char)
    (a : α) : Prop :=
  ∀ cur, cur.rest = text ++ rest → ∃ after, read cur = .ok (a, after) ∧ after.rest = rest

section

variable {cur : Cursor} {c : Char} {tail : List Char}

theorem Cursor.next?_eq (h : cur.rest = c :: tail) : cur.next? = some (c, cur.skip) := by
  simp only [Cursor.next?, Cursor.skip, h]

theorem Cursor.rest_skip (h : cur.rest = c :: tail) : cur.skip.rest = tail := by
  simp only [Cursor.skip, h]

theorem Cursor.peek?_eq (h : cur.rest = c :: tail) : cur.peek? = some c := by
  rw [Cursor.peek?, h, List.head?_cons]

theorem skipSpace_eq (h : cur.rest = c :: tail) (hc : isSpace c = false) : skipSpace cur = cur := by
  obtain ⟨text, place⟩ := cur
  obtain rfl : text = c :: tail := h
  simp [skipSpace, Cursor.skipWhile, hc]

/-! ## Strings -/

theorem hexValue?_hexDigit : ∀ n < 16, hexValue? (hexDigit n) = some n := by decide

/-- What stands behind the backslash for a character with a short escape. -/
def shortEscapes : List (Char × Char) :=
  [('"', '"'), ('\\', '\\'), ('b', Char.ofNat 8), ('f', Char.ofNat 12), ('n', '\n'), ('r', '\r'),
    ('t', '\t')]

theorem escape_short {mark : Char} (hmark : (mark, c) ∈ shortEscapes)
    (h : cur.rest = mark :: tail) :
    escape cur = .ok (c, cur.skip) := by
  simp only [shortEscapes, List.mem_cons, Prod.mk.injEq, List.not_mem_nil, or_false] at hmark
  unfold escape
  rw [Cursor.next?_eq h]
  obtain ⟨rfl, rfl⟩ | ⟨rfl, rfl⟩ | ⟨rfl, rfl⟩ | ⟨rfl, rfl⟩ | ⟨rfl,
    rfl⟩ | ⟨rfl, rfl⟩ | ⟨rfl, rfl⟩ := hmark <;>
    simp

theorem escape_control (hc : c.toNat < 0x20)
    (h : cur.rest =
      'u' :: '0' :: '0' :: hexDigit (c.toNat / 16) :: hexDigit (c.toNat % 16) :: tail) :
    ∃ after, escape cur = .ok (c, after) ∧ after.rest = tail := by
  have hdigits := Cursor.rest_skip h
  have hhigh := hexValue?_hexDigit (c.toNat / 16) (by omega)
  have hlow := hexValue?_hexDigit (c.toNat % 16) (by omega)
  have hzero : hexValue? '0' = some 0 := by decide
  have hvalue : ((0 * 16 + 0) * 16 + c.toNat / 16) * 16 + c.toNat % 16 = c.toNat := by omega
  have hhex : hex4 cur.skip = .ok (c.toNat, cur.skip.skip.skip.skip.skip) := by
    simp only [hex4, hdigits, hzero, hhigh, hlow, hvalue]
  have hunicode : unicodeEscape cur.skip = .ok (c, cur.skip.skip.skip.skip.skip) := by
    have hlead : ¬(0xD800 ≤ c.toNat ∧ c.toNat ≤ 0xDBFF) := by omega
    have htrail : ¬(0xDC00 ≤ c.toNat ∧ c.toNat ≤ 0xDFFF) := by omega
    simp [unicodeEscape, hhex, hlead, htrail, bind, Except.bind, pure, Except.pure,
      Char.ofNat_toNat]
  refine ⟨_, ?_,
    Cursor.rest_skip (Cursor.rest_skip (Cursor.rest_skip (Cursor.rest_skip hdigits)))⟩
  simp [escape, Cursor.next?_eq h, hunicode]

theorem stringBody_escape (fuel : Nat) (acc : List Char) {after : Cursor}
    (h : cur.rest = '\\' :: tail) (hescape : escape cur.skip = .ok (c, after)) :
    stringBody (fuel + 1) acc cur = stringBody fuel (c :: acc) after := by
  simp [stringBody, Cursor.next?_eq h, hescape]

/-- Each character of a string is read from what it is written as. There are nine kinds: seven with
an escape of their own, the other control characters, and those that stand for themselves. -/
theorem stringBody_escaped (fuel : Nat) (acc : List Char) (h : cur.rest = escaped c ++ tail) :
    ∃ after, stringBody (fuel + 1) acc cur = stringBody fuel (c :: acc) after ∧
      after.rest = tail := by
  -- the seven with a short escape are read in the same way
  have hshort : ∀ mark, (mark, c) ∈ shortEscapes → escaped c = ['\\', mark] →
      ∃ after, stringBody (fuel + 1) acc cur = stringBody fuel (c :: acc) after ∧
        after.rest = tail := by
    intro mark hmark htext
    rw [htext] at h
    have hskip := Cursor.rest_skip h
    exact ⟨_, stringBody_escape fuel acc h (escape_short hmark hskip), Cursor.rest_skip hskip⟩
  by_cases hquote : c = '"'
  · subst hquote
    exact hshort '"' (by decide) rfl
  by_cases hslash : c = '\\'
  · subst hslash
    exact hshort '\\' (by decide) rfl
  by_cases hback : c = Char.ofNat 8
  · subst hback
    exact hshort 'b' (by decide) rfl
  by_cases hfeed : c = Char.ofNat 12
  · subst hfeed
    exact hshort 'f' (by decide) rfl
  by_cases hline : c = '\n'
  · subst hline
    exact hshort 'n' (by decide) rfl
  by_cases hreturn : c = '\r'
  · subst hreturn
    exact hshort 'r' (by decide) rfl
  by_cases htab : c = '\t'
  · subst htab
    exact hshort 't' (by decide) rfl
  rw [escaped, if_neg hquote, if_neg hslash, if_neg hback, if_neg hfeed, if_neg hline,
    if_neg hreturn, if_neg htab] at h
  -- what is left is written by its code, or as itself
  by_cases hcontrol : c.toNat < 0x20
  · rw [if_pos hcontrol] at h
    obtain ⟨after, hescape, hafter⟩ := escape_control hcontrol (Cursor.rest_skip h)
    exact ⟨after, stringBody_escape fuel acc h hescape, hafter⟩
  · rw [if_neg hcontrol] at h
    refine ⟨cur.skip, ?_, Cursor.rest_skip h⟩
    simp [stringBody, Cursor.next?_eq h, hquote, hslash, hcontrol]

end

theorem stringBody_takes (s rest : List Char) (fuel : Nat) (acc : List Char)
    (hfuel : s.length < fuel) :
    Takes (stringBody fuel acc) (s.flatMap escaped ++ ['"']) rest
      (String.ofList (acc.reverse ++ s)) := by
  induction s generalizing fuel acc with
  | nil =>
    intro cur hcur
    obtain ⟨fuel, rfl⟩ : ∃ n, fuel = n + 1 := ⟨fuel - 1, by simp at hfuel; omega⟩
    refine ⟨cur.skip, ?_, Cursor.rest_skip hcur⟩
    simp [stringBody, Cursor.next?_eq hcur]
  | cons c s ih =>
    intro cur hcur
    obtain ⟨fuel, rfl⟩ : ∃ n, fuel = n + 1 := ⟨fuel - 1, by simp at hfuel; omega⟩
    rw [List.flatMap_cons, List.append_assoc, List.append_assoc] at hcur
    obtain ⟨behind, hchar, hbehind⟩ := stringBody_escaped fuel acc hcur
    have hrest := ih fuel (c :: acc) (Nat.lt_of_succ_lt_succ hfuel) behind (by simpa using hbehind)
    simpa [hchar] using hrest

/-- Every character is written with at least one, so the length of the text is fuel enough. -/
theorem length_le_flatMap_escaped (s : List Char) : s.length ≤ (s.flatMap escaped).length := by
  induction s with
  | nil => exact Nat.le_refl _
  | cons c s ih =>
    have hpos : 1 ≤ (escaped c).length := by
      unfold escaped
      repeat' split
      all_goals simp
    simp only [List.flatMap_cons, List.length_append, List.length_cons]
    omega

theorem string_takes (s : String) (rest : List Char) :
    Takes string (s.toList.flatMap escaped ++ ['"']) rest s := by
  intro cur hcur
  have hlength : s.toList.length < cur.rest.length + 1 := by
    have := length_le_flatMap_escaped s.toList
    rw [hcur]
    simp only [List.length_append]
    omega
  simpa [string] using stringBody_takes s.toList rest (cur.rest.length + 1) [] hlength cur hcur

/-! ## What the first character of a value decides

The reader of values is opened here once and for all. A container may be entered as long as the
depth is below the limit. -/

section

variable (build : List (String × Json) → Json) {cur : Cursor} {tail : List Char}
  (fuel depth : Nat)

theorem value_null (h : cur.rest = 'n' :: tail) :
    value build (fuel + 1) depth cur = ident .null "ull".toList cur.skip := by
  simp [value, skipSpace_eq h (by decide), Cursor.next?_eq h]

theorem value_true (h : cur.rest = 't' :: tail) :
    value build (fuel + 1) depth cur = ident (.bool true) "rue".toList cur.skip := by
  simp [value, skipSpace_eq h (by decide), Cursor.next?_eq h]

theorem value_false (h : cur.rest = 'f' :: tail) :
    value build (fuel + 1) depth cur = ident (.bool false) "alse".toList cur.skip := by
  simp [value, skipSpace_eq h (by decide), Cursor.next?_eq h]

theorem value_minus (h : cur.rest = '-' :: tail) :
    value build (fuel + 1) depth cur = number true cur.skip := by
  simp [value, skipSpace_eq h (by decide), Cursor.next?_eq h]

theorem value_digit {c : Char} (h : cur.rest = c :: tail) (hspace : isSpace c = false)
    (hc : c.isDigit = true) : value build (fuel + 1) depth cur = number false cur := by
  have hne : ∀ d : Char, d.isDigit = false → c ≠ d := by
    rintro d hd rfl
    rw [hc] at hd
    cases hd
  simp [value, skipSpace_eq h hspace, Cursor.next?_eq h, hc, hne 'n' rfl, hne 't' rfl, hne 'f' rfl,
    hne '-' rfl]

theorem value_string {s : String} {after : Cursor} (h : cur.rest = '"' :: tail)
    (hstring : string cur.skip = .ok (s, after)) :
    value build (fuel + 1) depth cur = .ok (.str s, after) := by
  simp [value, skipSpace_eq h (by decide), Cursor.next?_eq h, hstring]

theorem value_array (h : cur.rest = '[' :: tail) (hdepth : depth < maxDepth) :
    value build (fuel + 1) depth cur = items build fuel (depth + 1) true [] cur.skip := by
  simp [value, skipSpace_eq h (by decide), Cursor.next?_eq h, Nat.not_le.mpr hdepth]

theorem value_object (h : cur.rest = '\x7b' :: tail) (hdepth : depth < maxDepth) :
    value build (fuel + 1) depth cur = members build fuel (depth + 1) true [] cur.skip := by
  simp [value, skipSpace_eq h (by decide), Cursor.next?_eq h, Nat.not_le.mpr hdepth]

theorem ident_takes (j : Json) (word rest : List Char) : Takes (ident j word) word rest j := by
  induction word with
  | nil =>
    intro cur hcur
    exact ⟨cur, rfl, hcur⟩
  | cons c word ih =>
    intro cur hcur
    obtain ⟨after, hident, hafter⟩ := ih cur.skip (Cursor.rest_skip hcur)
    exact ⟨after, by simpa [ident, Cursor.next?_eq hcur] using hident, hafter⟩

end

/-! ## Numbers -/

/-- What is left of a text without blanks, when only blanks are left, is nothing. -/
theorem Longer.rest_eq {whole rest : List Char} {cur long : Cursor} (h : Longer whole rest cur long)
    (blankless : Blankless whole) (hend : (skipSpace cur).peek? = none) : long.rest = rest := by
  have hempty : cur.rest = [] := by
    cases hrest : cur.rest with
    | nil => rfl
    | cons c tail =>
      have hc : isSpace c = false := blankless c (h.inside.subset (by simp [hrest]))
      rw [skipSpace_eq hrest hc, Cursor.peek?_eq hrest] at hend
      cases hend
  rw [h.text, hempty, List.nil_append]

theorem parse_render_null {j : Json} (h : chars j = chars .null) : parse j.render = .ok .null := by
  have hrender : j.render = Json.render .null := congrArg String.ofList h
  rw [hrender]
  rfl

theorem ofString_render (j : Json) : (Cursor.ofString j.render).rest = chars j := by
  simp [Cursor.ofString, render]

/-- What it means for a text to be read: a value stands there, and nothing but blanks behind it. -/
theorem value_of_parse {j k : Json} (h : parse j.render = .ok k) :
    ∃ after, value ofMembers (2 * (chars j).length + 2) 0 (.ofString j.render) =
      .ok (k, after) ∧ (skipSpace after).peek? = none := by
  unfold parse parseWith at h
  simp only [ofString_render] at h
  split at h
  · cases h
  · rename_i value after hvalue
    refine ⟨after, ?_⟩
    split at h
    · rename_i hpeek
      cases h
      exact ⟨hvalue, hpeek⟩
    · cases h

/-- **A number that is read back alone is read back in every place.** What is read alone is known
only up to blanks at the end, and the text of a number has none. -/
theorem number_takes {j k : Json} (hj : j.isNumber = true) (hk : k.isNumber = true)
    (h : parse j.render = .ok k) {rest : List Char} (stops : Stops rest)
    (build : List (String × Json) → Json) (fuel depth : Nat) :
    Takes (value build (fuel + 1) depth) (chars j) rest k := by
  obtain ⟨after, hvalue, hend⟩ := value_of_parse h
  have hstart := ofString_render j
  intro cur hcur
  obtain hnull | hnumeral | ⟨ds, hds, hnumeral⟩ := chars_number hj
  · -- written as `null`, it is not read as a number
    rw [parse_render_null hnull] at h
    cases h
    cases hk
  -- read alone and read here, the two cursors take the same branch and differ only in what follows
  · obtain ⟨d, ds, hds, hdigit⟩ := hnumeral.first
    have hspace : isSpace d = false := hnumeral.blankless d (by simp [hds])
    rw [hds] at hcur hstart
    rw [value_digit _ _ _ hstart hspace hdigit] at hvalue
    rw [value_digit _ _ _ hcur hspace hdigit]
    have hlonger : Longer (chars j) rest (.ofString j.render) cur :=
      ⟨by simp [hstart, hds], by simp [hcur, hstart]⟩
    obtain ⟨behind, hnumber, hbehind⟩ := hlonger.number stops false k after hvalue
    exact ⟨behind, hnumber, hbehind.rest_eq hnumeral.blankless hend⟩
  -- behind the sign it is the same argument one character on
  · rw [hds] at hcur hstart
    rw [value_minus _ _ _ hstart] at hvalue
    rw [value_minus _ _ _ hcur]
    have hlonger : Longer ds rest (Cursor.ofString j.render).skip cur.skip :=
      ⟨by simp [Cursor.rest_skip hstart], by simp [Cursor.rest_skip hcur,
        Cursor.rest_skip hstart]⟩
    obtain ⟨behind, hnumber, hbehind⟩ := hlonger.number stops true k after hvalue
    exact ⟨behind, hnumber, hbehind.rest_eq hnumeral.blankless hend⟩

/-! ## Items and members

What stands between two items stands in front of every one but the first, and the readers of arrays
and objects are told whether they are at the first. -/

/-- What separates an item from the one in front of it. -/
def lead (first : Bool) : List Char := if first then [] else [',']

/-- The items of an array up to its bracket, all but the first behind a comma. -/
def itemText (first : Bool) : List Json → List Char
  | [] => [']']
  | j :: rest => lead first ++ (chars j ++ itemText false rest)

/-- The members of an object up to its brace, all but the first behind a comma. The writer puts a
comma behind every one but the last, and the reader looks for one in front of every one but the
first. -/
def memberText (first : Bool) : List (String × Json) → List Char
  | [] => ['\x7d']
  | (key, j) :: rest => lead first ++ (stringChars key ++ ':' :: (chars j ++ memberText false rest))

theorem itemChars_eq (js : List Json) : itemChars js = itemText true js := by
  induction js with
  | nil => rfl
  | cons j js ih =>
    cases js with
    | nil => rfl
    | cons k js => rw [itemChars, ih] <;> simp [itemText, lead]

theorem memberChars_eq (ms : List (String × Json)) : memberChars ms = memberText true ms := by
  induction ms with
  | nil => rfl
  | cons m ms ih =>
    cases ms with
    | nil => rfl
    | cons m' ms => rw [memberChars, ih] <;> simp [memberText, lead]

theorem stops_itemText (js : List Json) (rest : List Char) : Stops (itemText false js ++ rest) := by
  cases js with
  | nil => exact stops_cons _ (by decide)
  | cons j js => exact stops_cons _ (by decide)

theorem stops_memberText (ms : List (String × Json)) (rest : List Char) :
    Stops (memberText false ms ++ rest) := by
  cases ms with
  | nil => exact stops_cons _ (by decide)
  | cons m ms => exact stops_cons _ (by decide)

theorem itemText_pos (js : List Json) : 0 < (itemText false js).length := by
  cases js with
  | nil => exact Nat.one_pos
  | cons j js => exact Nat.succ_pos _

theorem memberText_pos (ms : List (String × Json)) : 0 < (memberText false ms).length := by
  cases ms with
  | nil => exact Nat.one_pos
  | cons m ms => exact Nat.succ_pos _

/-- The text of a tree starts like a value. In particular it does not start with a bracket that
would close the array it stands in. -/
theorem chars_cons (j : Json) :
    ∃ c cs, chars j = c :: cs ∧ isSpace c = false ∧ c ≠ ']' := by
  have hnull : ∃ c cs, chars .null = c :: cs ∧ isSpace c = false ∧ c ≠ ']' :=
    ⟨'n', _, rfl, by decide⟩
  have hnumber : j.isNumber = true → ∃ c cs, chars j = c :: cs ∧ isSpace c = false ∧
      c ≠ ']' := by
    intro hj
    obtain heq | hnumeral | ⟨ds, hds, -⟩ := chars_number hj
    · rw [heq]
      exact hnull
    · obtain ⟨d, ds, hds, hdigit⟩ := hnumeral.first
      refine ⟨d, ds, hds, hnumeral.blankless d (by simp [hds]), ?_⟩
      rintro rfl
      cases hdigit
    · exact ⟨'-', ds, hds, by decide⟩
  cases j with
  | null => exact hnull
  | bool b =>
    cases b with
    | true => exact ⟨'t', _, rfl, by decide⟩
    | false => exact ⟨'f', _, rfl, by decide⟩
  | int n => exact hnumber rfl
  | float x => exact hnumber rfl
  | str s => exact ⟨'"', _, rfl, by decide⟩
  | array js => exact ⟨'[', _, rfl, by decide⟩
  | object ms => exact ⟨'\x7b', _, rfl, by decide⟩

section

variable (build : List (String × Json) → Json) {cur : Cursor} {c : Char} {tail : List Char}
  (fuel depth : Nat) (first : Bool)

theorem items_close (acc : List Json) (h : cur.rest = ']' :: tail) :
    items build (fuel + 1) depth first acc cur = .ok (.array acc.reverse, cur.skip) := by
  simp [items, skipSpace_eq h (by decide), Cursor.next?_eq h]

theorem items_item (acc : List Json) (h : cur.rest = lead first ++ c :: tail)
    (hspace : isSpace c = false) (hc : c ≠ ']') :
    ∃ inner, inner.rest = c :: tail ∧ ∀ j after,
      value build fuel depth inner = .ok (j, after) →
        items build (fuel + 1) depth first acc cur =
          items build fuel depth false (j :: acc) after := by
  cases first with
  | true =>
    refine ⟨cur, h, fun j after hvalue => ?_⟩
    simp [items, skipSpace_eq h hspace, Cursor.next?_eq h, hc, hvalue]
  | false =>
    have hskip := Cursor.rest_skip h
    refine ⟨cur.skip, hskip, fun j after hvalue => ?_⟩
    simp [items, skipSpace_eq h (by decide), Cursor.next?_eq h, skipSpace_eq hskip hspace,
      Cursor.peek?_eq hskip, hc, hvalue]

theorem members_close (acc : List (String × Json)) (h : cur.rest = '\x7d' :: tail) :
    members build (fuel + 1) depth first acc cur = .ok (build acc.reverse, cur.skip) := by
  simp [members, skipSpace_eq h (by decide), Cursor.next?_eq h]

/-- Behind its separator a member is read as a string, a colon and a value, and the others after
it. -/
theorem members_member (acc : List (String × Json)) (h : cur.rest = lead first ++ '"' :: tail) :
    ∃ inner, inner.rest = tail ∧ ∀ key behind more, string inner = .ok (key, behind) →
      behind.rest = ':' :: more →
        ∀ j after, value build fuel depth behind.skip = .ok (j, after) →
          members build (fuel + 1) depth first acc cur =
          members build fuel depth false ((key, j) :: acc) after := by
  cases first with
  | true =>
    refine ⟨cur.skip, Cursor.rest_skip h,
      fun key behind more hstring hcolon j after hvalue => ?_⟩
    simp [members, skipSpace_eq h (by decide), Cursor.next?_eq h, hstring,
      skipSpace_eq hcolon (by decide), Cursor.next?_eq hcolon, hvalue]
  | false =>
    have hskip := Cursor.rest_skip h
    refine ⟨cur.skip.skip, Cursor.rest_skip hskip,
      fun key behind more hstring hcolon j after hvalue => ?_⟩
    simp [members, skipSpace_eq h (by decide), Cursor.next?_eq h, skipSpace_eq hskip (by decide),
      Cursor.next?_eq hskip, hstring, skipSpace_eq hcolon (by decide),
      Cursor.next?_eq hcolon, hvalue]

end

/-! ## Trees -/

/-- The text of this number is read as a number. An infinity is written as `null`, so it is not. -/
def IsRead (j : Json) : Prop := ∃ k, k.isNumber = true ∧ parse j.render = .ok k

/-- What the text of a number is read as. -/
def rereadNumber (j : Json) : Json :=
  match parse j.render with
  | .ok k => k
  | .error _ => j

mutual

/-- Every number is read as a number, and the members of every object are in key order. These are
the only conditions under which text is read back. -/
def Legible : Json → Prop
  | .int n => IsRead (.int n)
  | .float x => IsRead (.float x)
  | .array items => LegibleItems items
  | .object members => Assoc.Sorted members ∧ LegibleMembers members
  | _ => True

def LegibleItems : List Json → Prop
  | [] => True
  | j :: rest => Legible j ∧ LegibleItems rest

def LegibleMembers : List (String × Json) → Prop
  | [] => True
  | (_, j) :: rest => Legible j ∧ LegibleMembers rest

end

mutual

/-- The tree with every number as its text is read. -/
def reread : Json → Json
  | .int n => rereadNumber (.int n)
  | .float x => rereadNumber (.float x)
  | .array items => .array (rereadItems items)
  | .object members => .object (rereadMembers members)
  | j => j

def rereadItems : List Json → List Json
  | [] => []
  | j :: rest => reread j :: rereadItems rest

def rereadMembers : List (String × Json) → List (String × Json)
  | [] => []
  | (key, j) :: rest => (key, reread j) :: rereadMembers rest

end

theorem keys_rereadMembers (ms : List (String × Json)) :
    Assoc.keys (rereadMembers ms) = Assoc.keys ms := by
  induction ms with
  | nil => rfl
  | cons m ms ih =>
    obtain ⟨key, j⟩ := m
    exact congrArg (key :: ·) ih

theorem legible_number {j k : Json} (hj : j.isNumber = true) (hk : k.isNumber = true)
    (hparse : parse j.render = .ok k) : j.Legible ∧ j.reread = k := by
  cases j with
  | int n => exact ⟨⟨k, hk, hparse⟩, by simp [reread, rereadNumber, hparse]⟩
  | float x => exact ⟨⟨k, hk, hparse⟩, by simp [reread, rereadNumber, hparse]⟩
  | _ => cases hj

theorem IsRead.takes {j : Json} (h : IsRead j) (hj : j.isNumber = true) {rest : List Char}
    (stops : Stops rest) (build : List (String × Json) → Json) (fuel depth : Nat) :
    Takes (value build (fuel + 1) depth) (chars j) rest (rereadNumber j) := by
  obtain ⟨k, hk, hparse⟩ := h
  have hreread : rereadNumber j = k := by simp [rereadNumber, hparse]
  rw [hreread]
  exact number_takes hj hk hparse stops build fuel depth

/-- Of members that are in key order the reader makes the object that has just these. It need not
keep any others. -/
def Keeps (build : List (String × Json) → Json) : Prop :=
  ∀ members, Assoc.Sorted members → build members = .object members

theorem keeps_ofMembers : Keeps ofMembers := by
  intro members sorted
  rw [ofMembers, Assoc.ofList_of_sorted sorted]

theorem keeps_object : Keeps .object := fun _ _ => rfl

section

variable {build : List (String × Json) → Json}

mutual

/-- **The text of a tree is read as the tree**, wherever it stands. The three are by recursion over
the tree; fuel and depth go along, and one round of the reader costs one of each. -/
theorem value_takes (keeps : Keeps build) (j : Json) (legible : j.Legible) (fuel depth : Nat)
    {rest : List Char} (stops : Stops rest) (hfuel : (chars j).length ≤ fuel)
    (hdepth : depth + j.depth ≤ maxDepth) :
    Takes (value build fuel depth) (chars j) rest j.reread := by
  -- a text has a character, so there is fuel for it
  obtain ⟨fuel, rfl⟩ : ∃ n, fuel = n + 1 := by
    obtain ⟨c, cs, hcs, -⟩ := chars_cons j
    exact ⟨fuel - 1, by simp [hcs] at hfuel; omega⟩
  match j with
  | .null =>
    intro cur hcur
    rw [value_null _ _ _ hcur]
    exact ident_takes .null "ull".toList rest cur.skip (Cursor.rest_skip hcur)
  | .bool true =>
    intro cur hcur
    rw [value_true _ _ _ hcur]
    exact ident_takes (.bool true) "rue".toList rest cur.skip (Cursor.rest_skip hcur)
  | .bool false =>
    intro cur hcur
    rw [value_false _ _ _ hcur]
    exact ident_takes (.bool false) "alse".toList rest cur.skip (Cursor.rest_skip hcur)
  | .int n => exact legible.takes rfl stops build fuel depth
  | .float x => exact legible.takes rfl stops build fuel depth
  | .str s =>
    intro cur hcur
    obtain ⟨after, hstring, hafter⟩ := string_takes s rest cur.skip (Cursor.rest_skip hcur)
    exact ⟨after, value_string _ _ _ hcur hstring, hafter⟩
  | .array js =>
    intro cur hcur
    rw [chars, itemChars_eq] at hcur hfuel
    rw [Json.depth] at hdepth
    rw [value_array _ _ _ hcur (by omega)]
    exact items_take keeps js legible fuel (depth + 1) true [] rest
      (Nat.le_of_succ_le_succ hfuel) (by omega)
      cur.skip (Cursor.rest_skip hcur)
  | .object ms =>
    intro cur hcur
    rw [chars, memberChars_eq] at hcur hfuel
    rw [Json.depth] at hdepth
    rw [value_object _ _ _ hcur (by omega)]
    obtain ⟨after, hmembers, hafter⟩ :=
      members_take keeps ms legible.2 fuel (depth + 1) true [] rest
      (Nat.le_of_succ_le_succ hfuel) (by omega) cur.skip (Cursor.rest_skip hcur)
    -- the members come back in the order of their keys, so collecting them again changes nothing
    have hsorted : Assoc.Sorted (rereadMembers ms) := by
      rw [Assoc.Sorted, keys_rereadMembers]
      exact legible.1
    refine ⟨after, ?_, hafter⟩
    rw [hmembers, List.reverse_nil, List.nil_append, keeps _ hsorted, reread]

/-- The items of an array from one of them on, with those in front of it collected already. -/
theorem items_take (keeps : Keeps build) (js : List Json) (legible : LegibleItems js)
    (fuel depth : Nat) (first : Bool) (acc : List Json) (rest : List Char)
    (hfuel : (itemText first js).length ≤ fuel) (hdepth : depth + depthItems js ≤ maxDepth) :
    Takes (items build fuel depth first acc) (itemText first js) rest
      (.array (acc.reverse ++ rereadItems js)) := by
  match js with
  | [] =>
    intro cur hcur
    obtain ⟨fuel, rfl⟩ : ∃ n, fuel = n + 1 :=
      ⟨fuel - 1, by simp [itemText] at hfuel; omega⟩
    refine ⟨cur.skip, ?_, Cursor.rest_skip hcur⟩
    rw [items_close _ _ _ _ _ hcur, rereadItems, List.append_nil]
  | j :: js =>
    intro cur hcur
    obtain ⟨c, cs, hcs, hspace, hc⟩ := chars_cons j
    have hmore := itemText_pos js
    simp only [itemText, List.length_append] at hfuel
    simp only [depthItems] at hdepth
    -- the item and what follows it have a character each, so one round less of fuel is enough for
    -- both
    have hpos : 0 < (chars j).length := by simp [hcs]
    obtain ⟨fuel, rfl⟩ : ∃ n, fuel = n + 1 := ⟨fuel - 1, by omega⟩
    have htext : cur.rest = lead first ++ c :: (cs ++ (itemText false js ++ rest)) := by
      simpa [itemText, hcs] using hcur
    obtain ⟨inner, hinner, hitem⟩ := items_item build fuel depth first acc htext hspace hc
    obtain ⟨behind, hvalue, hbehind⟩ :=
      value_takes keeps j legible.1 fuel depth (stops_itemText js rest)
      (by omega) (by omega) inner (by simpa [hcs] using hinner)
    obtain ⟨after, hitems, hafter⟩ :=
      items_take keeps js legible.2 fuel depth false (reread j :: acc) rest
      (by omega) (by omega) behind hbehind
    exact ⟨after, by simpa [hitem _ _ hvalue, rereadItems] using hitems, hafter⟩

theorem members_take (keeps : Keeps build) (ms : List (String × Json))
    (legible : LegibleMembers ms) (fuel depth : Nat) (first : Bool) (acc : List (String × Json))
    (rest : List Char) (hfuel : (memberText first ms).length ≤ fuel)
    (hdepth : depth + depthMembers ms ≤ maxDepth) :
    Takes (members build fuel depth first acc) (memberText first ms) rest
      (build (acc.reverse ++ rereadMembers ms)) := by
  match ms with
  | [] =>
    intro cur hcur
    obtain ⟨fuel, rfl⟩ : ∃ n, fuel = n + 1 :=
      ⟨fuel - 1, by simp [memberText] at hfuel; omega⟩
    refine ⟨cur.skip, ?_, Cursor.rest_skip hcur⟩
    rw [members_close _ _ _ _ _ hcur, rereadMembers, List.append_nil]
  | (key, j) :: ms =>
    intro cur hcur
    have hmore := memberText_pos ms
    simp only [memberText, stringChars, List.length_append, List.length_cons] at hfuel
    simp only [depthMembers] at hdepth
    obtain ⟨fuel, rfl⟩ : ∃ n, fuel = n + 1 := ⟨fuel - 1, by omega⟩
    -- comma, key, colon, value and the other members, each of which is read by its own lemma
    have htext : cur.rest = lead first ++ '"' :: ((key.toList.flatMap escaped ++ ['"']) ++
        ':' :: (chars j ++ (memberText false ms ++ rest))) := by
      simpa [memberText, stringChars] using hcur
    obtain ⟨inner, hinner, hmember⟩ := members_member build fuel depth first acc htext
    obtain ⟨colon, hstring, hcolon⟩ := string_takes key _ inner hinner
    obtain ⟨behind, hvalue, hbehind⟩ :=
      value_takes keeps j legible.1 fuel depth (stops_memberText ms rest)
      (by omega) (by omega) colon.skip (Cursor.rest_skip hcolon)
    obtain ⟨after, hmembers, hafter⟩ := members_take keeps ms legible.2 fuel depth false
      ((key, reread j) :: acc) rest (by omega) (by omega) behind hbehind
    exact ⟨after, by simpa [hmember _ _ _ hstring hcolon _ _ hvalue,
      rereadMembers] using hmembers, hafter⟩

end

end

/-- **What is written is read.** Behind the text there is nothing, which stops a number as well. -/
theorem parseWith_render {build : List (String × Json) → Json} (keeps : Keeps build) (j : Json)
    (legible : j.Legible) (shallow : j.depth ≤ maxDepth) :
    parseWith build j.render = .ok j.reread := by
  have hstart : (Cursor.ofString j.render).rest = chars j := ofString_render j
  obtain ⟨after, hvalue, hafter⟩ :=
    value_takes keeps j legible (2 * (chars j).length + 2) 0 stops_nil
    (by omega) (by omega) (.ofString j.render) (by rw [hstart, List.append_nil])
  have hend : (skipSpace after).peek? = none := by
    simp [skipSpace, Cursor.skipWhile, Cursor.peek?, hafter]
  simp only [parseWith, hstart, hvalue, hend]

theorem parse_render (j : Json) (legible : j.Legible) (shallow : j.depth ≤ maxDepth) :
    parse j.render = .ok j.reread :=
  parseWith_render keeps_ofMembers j legible shallow

end Json

/-! ## Values -/

namespace Value

mutual

/-- The value and everything in it. A condition on values is stated for all parts at once, and can
be decided on a given value. -/
def parts : Value → List Value
  | .array items => .array items :: partsItems items
  | .struct fields => .struct fields :: partsFields fields
  | v => [v]

def partsItems : List Value → List Value
  | [] => []
  | v :: rest => parts v ++ partsItems rest

def partsFields : List (String × Value) → List Value
  | [] => []
  | (_, v) :: rest => parts v ++ partsFields rest

end

/-- The JSON number that is written for `x` is read as a number equal to `x`. One that is not finite
is written as `null`, which is not. Equal means as numbers, so negative zero may come back as
zero. -/
def ReadsBack (x : Float) : Prop :=
  (Json.parse (numToJson x).render).toOption.any (fun j => ofJson j == .num x) = true

instance (x : Float) : Decidable (ReadsBack x) :=
  inferInstanceAs (Decidable (_ = true))

/-- What a part of a value must be for the value to survive as text. That fields are in key order is
part of being a struct. -/
def Survives : Value → Prop
  | .error _ => False
  | .num x => ReadsBack x
  | .struct fields => Assoc.Sorted fields
  | _ => True

instance : DecidablePred Survives
  | .error _ => inferInstanceAs (Decidable False)
  | .num x => inferInstanceAs (Decidable (ReadsBack x))
  | .struct fields => inferInstanceAs (Decidable (Assoc.Sorted fields))
  | .null | .bool _ | .str _ | .array _ => inferInstanceAs (Decidable True)

theorem isNumber_of_beq {j : Json} {x : Float} (h : beq (ofJson j) (.num x) = true) :
    j.isNumber = true := by
  cases j with
  | int n => rfl
  | float y => rfl
  | _ => cases h

theorem ReadsBack.parse {x : Float} (h : ReadsBack x) :
    ∃ j, Json.parse (numToJson x).render = .ok j ∧ beq (ofJson j) (.num x) = true := by
  unfold ReadsBack at h
  cases hparse : Json.parse (numToJson x).render with
  | error e =>
    rw [hparse] at h
    cases h
  | ok j =>
    rw [hparse] at h
    exact ⟨j, rfl, h⟩

theorem numToJson_eq_null_or (x : Float) :
    numToJson x = .null ∨ (numToJson x).isNumber = true := by
  unfold numToJson
  split
  · exact .inr rfl
  · split
    · exact .inr rfl
    · exact .inl rfl

theorem ReadsBack.number {x : Float} (h : ReadsBack x) :
    (numToJson x).Legible ∧ beq (ofJson (numToJson x).reread) (.num x) = true := by
  obtain ⟨j, hparse, hbeq⟩ := h.parse
  obtain hnull | hnumber := numToJson_eq_null_or x
  · rw [hnull, Json.parse_render_null rfl] at hparse
    cases hparse
    cases hbeq
  · obtain ⟨hlegible, hreread⟩ := Json.legible_number hnumber (isNumber_of_beq hbeq) hparse
    refine ⟨hlegible, ?_⟩
    rw [hreread]
    exact hbeq

theorem keys_toJsonFields (fields : List (String × Value)) :
    Assoc.keys (toJsonFields fields) = Assoc.keys fields := by
  induction fields with
  | nil => rfl
  | cons field fields ih =>
    obtain ⟨key, v⟩ := field
    exact congrArg (key :: ·) ih

mutual

/-- The tree of a value whose parts survive is legible, and its rereading is an equal value. -/
theorem survives_json (v : Value) (h : ∀ p ∈ v.parts, p.Survives) :
    v.toJson.Legible ∧ beq (ofJson v.toJson.reread) v = true := by
  match v with
  | .null => exact ⟨trivial, rfl⟩
  | .bool b => exact ⟨trivial, by simp [toJson, Json.reread, ofJson, beq]⟩
  | .num x => exact ReadsBack.number (h (.num x) (by simp [parts]))
  | .str s => exact ⟨trivial, by simp [toJson, Json.reread, ofJson, beq]⟩
  | .array items =>
    obtain ⟨hlegible, hbeq⟩ := survives_jsonItems items fun p hp => h p (by simp [parts, hp])
    exact ⟨hlegible, by simpa [toJson, Json.reread, ofJson, beq] using hbeq⟩
  | .struct fields =>
    obtain ⟨hlegible, hbeq⟩ := survives_jsonFields fields fun p hp => h p (by simp [parts, hp])
    have hsorted : Assoc.Sorted fields := h (.struct fields) (by simp [parts])
    refine ⟨⟨?_, hlegible⟩, by simpa [toJson, Json.reread, ofJson, beq] using hbeq⟩
    rw [Assoc.Sorted, keys_toJsonFields]
    exact hsorted
  | .error info => exact (h (.error info) (by simp [parts])).elim

theorem survives_jsonItems (vs : List Value) (h : ∀ p ∈ partsItems vs, p.Survives) :
    Json.LegibleItems (toJsonItems vs) ∧
      beqItems (ofJsonItems (Json.rereadItems (toJsonItems vs))) vs = true := by
  match vs with
  | [] => exact ⟨trivial, rfl⟩
  | v :: vs =>
    obtain ⟨hfirst, hv⟩ := survives_json v fun p hp => h p (by simp [partsItems, hp])
    obtain ⟨hrest, hvs⟩ := survives_jsonItems vs fun p hp => h p (by simp [partsItems, hp])
    exact ⟨⟨hfirst, hrest⟩, by simp [toJsonItems, Json.rereadItems, ofJsonItems,
      beqItems, hv, hvs]⟩

theorem survives_jsonFields (fs : List (String × Value))
    (h : ∀ p ∈ partsFields fs, p.Survives) :
    Json.LegibleMembers (toJsonFields fs) ∧
      beqFields (ofJsonMembers (Json.rereadMembers (toJsonFields fs))) fs = true := by
  match fs with
  | [] => exact ⟨trivial, rfl⟩
  | (key, v) :: fs =>
    obtain ⟨hfirst, hv⟩ := survives_json v fun p hp => h p (by simp [partsFields, hp])
    obtain ⟨hrest, hvs⟩ := survives_jsonFields fs fun p hp => h p (by simp [partsFields, hp])
    exact ⟨⟨hfirst, hrest⟩, by
      simp [toJsonFields, Json.rereadMembers, ofJsonMembers, beqFields, hv, hvs]⟩

end

end Value

namespace Builtin

/-- **Reading the JSON text of a value gives an equal value.** -/
theorem jsonParse_jsonStringify (clock later : String) (v : Value)
    (survives : ∀ p ∈ v.parts, p.Survives) (shallow : v.toJson.depth ≤ Json.maxDepth) :
    ∃ s w, apply clock .jsonStringify [v] = .ok (.str s) ∧
      apply later .jsonParse [.str s] = .ok w ∧ (w == v) = true := by
  obtain ⟨hlegible, hbeq⟩ := v.survives_json survives
  have hparse := Json.parse_render v.toJson hlegible shallow
  refine ⟨v.toJson.render, .ofJson v.toJson.reread, rfl, ?_, hbeq⟩
  simp [apply, parseJson, one, text, hparse, bind, Except.bind, pure, Except.pure]

/-- Keys and strings with characters of every class, empty and nested collections, both ways to
write a number, and negative zero, which comes back as zero. -/
def assorted : Value :=
  .struct
    [("", .array []),
      ("\"\\/\u0001\u007f", .str "tab\t line\n nul\u0000 quote\" slash\\ é \u2028 😀"),
      ("amounts", .array [.num 2.5, .num (-0.0), .num 1e300, .num (-42.0), .num 0.1]),
      ("nested", .struct [("list", .array [.struct [], .array [.null, .bool true]]),
        ("é", .bool false)])]

theorem jsonParse_jsonStringify_assorted :
    (∀ p ∈ assorted.parts, p.Survives) ∧ assorted.toJson.depth ≤ Json.maxDepth ∧
      ∃ s w, apply "" .jsonStringify [assorted] = .ok (.str s) ∧
        apply "" .jsonParse [.str s] = .ok w ∧ (w == assorted) = true := by
  have hsurvives : ∀ p ∈ assorted.parts, p.Survives := by decide +kernel
  have hshallow : assorted.toJson.depth ≤ Json.maxDepth := by decide +kernel
  exact ⟨hsurvives, hshallow, jsonParse_jsonStringify "" "" assorted hsurvives hshallow⟩

end Builtin

end Stepwise
