import Stepwise.Json.Parser
import Stepwise.Json.Printer

/-!
# Numbers in the middle of a text

A number is read up to the first character that it cannot go on with, whatever its place. **What a
number alone is read as it is read as in front of such a character too** (`Longer.number`), so
whatever is known of reading the text of a number holds inside of arrays and objects.

It would be another task to say which number is read. A number may come back as another one, and
that it does not is decided by reading it alone. So the reader of numbers is never evaluated here:
its runs on two texts are compared, of which the second is the first with more behind it. The reader
goes the same way on both until the first is used up, and there the second has a character that
stops it.

## Layout

`Longer` relates the two cursors, and `Extends` the two results. There is a lemma for every function
of the reader, from the digits up to the whole number. Some of the functions do two things with a
`match` in between; these are cut into named halves first (`exponentBody`, `wholeEnd` and others),
each with an equation, because a lemma cannot be stated about the inside of a `match`.

The last section is about the other side, the texts that are written for numbers: they begin with a
digit, perhaps behind a sign, and have no blank in them. That is all that `Proofs/JsonText` has to
know about how numbers are laid out.
-/

namespace Stepwise.Json

/-- No number goes on with this text: it is empty, or starts with neither a digit nor a point nor
the mark of an exponent. It may start with a sign, which a number has only behind such a mark. -/
def Stops (rest : List Char) : Prop :=
  ∀ c, rest.head? = some c → c.isDigit = false ∧ c ≠ '.' ∧ c ≠ 'e' ∧ c ≠ 'E'

theorem stops_nil : Stops [] := by
  intro c hc
  cases hc

theorem stops_cons {c : Char} (rest : List Char)
    (h : c.isDigit = false ∧ c ≠ '.' ∧ c ≠ 'e' ∧ c ≠ 'E') : Stops (c :: rest) := by
  intro d hd
  cases hd
  exact h

/-! ## Cursors in a longer text -/

/-- The second cursor has the text of the first one in front of it, and more behind; the first is in
the text `whole`. Their places do not matter. -/
structure Longer (whole rest : List Char) (cur long : Cursor) : Prop where
  inside : cur.rest <:+ whole
  text : long.rest = cur.rest ++ rest

/-- The second result is the first one, in a longer text. If the first run fails nothing is said,
since what fails alone might be read when more follows. -/
def Extends (whole rest : List Char) (short long : Except ParseError (Json × Cursor)) : Prop :=
  ∀ j cur, short = .ok (j, cur) → ∃ cur', long = .ok (j, cur') ∧ Longer whole rest cur cur'

section

variable {whole rest : List Char} {cur long : Cursor}

theorem Longer.peek? (h : Longer whole rest cur long) {c : Char} (hc : cur.peek? = some c) :
    long.peek? = some c := by
  obtain ⟨cs, hcs⟩ := List.head?_eq_some_iff.mp hc
  simp [Cursor.peek?, h.text, hcs]

theorem Longer.skip (h : Longer whole rest cur long) {c : Char} (hc : cur.peek? = some c) :
    Longer whole rest cur.skip long.skip := by
  obtain ⟨text, place⟩ := cur
  obtain ⟨text', place'⟩ := long
  obtain rfl : text' = text ++ rest := h.text
  cases text with
  | nil => cases hc
  | cons d cs => exact ⟨(List.suffix_cons d cs).trans h.inside, rfl⟩

/-- Behind the end of a number comes what stops it. So a test for a character of numbers that fails
on the shorter text fails on the longer one. -/
theorem Longer.peek?_ne (h : Longer whole rest cur long) (stops : Stops rest) {c : Char}
    (hcur : cur.peek? ≠ some c) (hc : c.isDigit = true ∨ c = '.' ∨ c = 'e' ∨ c = 'E') :
    long.peek? ≠ some c := by
  intro hlong
  cases hpeek : cur.peek? with
  | some d =>
    rw [h.peek? hpeek] at hlong
    exact hcur (hpeek.trans hlong)
  | none =>
    have hempty : cur.rest = [] := List.head?_eq_none_iff.mp hpeek
    rw [Cursor.peek?, h.text, hempty, List.nil_append] at hlong
    obtain ⟨hdigit, hpoint, hsmall, hlarge⟩ := stops c hlong
    obtain hc | hc | hc | hc := hc
    · rw [hdigit] at hc
      cases hc
    · exact hpoint hc
    · exact hsmall hc
    · exact hlarge hc

theorem Extends.of_fail {cause : ParseCause} {long : Except ParseError (Json × Cursor)} :
    Extends whole rest (cur.fail cause) long := by
  intro j cur' h
  cases h

theorem Extends.of_failNext {cause : ParseCause} {long : Except ParseError (Json × Cursor)} :
    Extends whole rest (cur.failNext cause) long := by
  intro j cur' h
  cases h

theorem Longer.done (h : Longer whole rest cur long) (j : Json) :
    Extends whole rest (.ok (j, cur)) (.ok (j, long)) := by
  intro j' cur' heq
  cases heq
  exact ⟨long, rfl, h⟩

/-! ## Digits -/

theorem takeWhile_digits (stops : Stops rest) (cs : List Char) :
    (cs ++ rest).takeWhile Char.isDigit = cs.takeWhile Char.isDigit := by
  induction cs with
  | nil =>
    cases rest with
    | nil => rfl
    | cons c rest => simp [(stops c rfl).1]
  | cons c cs ih => simp [List.takeWhile_cons, ih]

theorem dropWhile_digits (stops : Stops rest) (cs : List Char) :
    (cs ++ rest).dropWhile Char.isDigit = cs.dropWhile Char.isDigit ++ rest := by
  induction cs with
  | nil =>
    cases rest with
    | nil => rfl
    | cons c rest => simp [(stops c rfl).1]
  | cons c cs ih =>
    simp only [List.cons_append, List.dropWhile_cons, ih]
    split <;> rfl

/-- Both readers take the same digits. Where the shorter text ends with them, the longer one goes on
with something else. -/
theorem Longer.digits (h : Longer whole rest cur long) (stops : Stops rest) :
    (Json.digits long).1 = (Json.digits cur).1 ∧
      Longer whole rest (Json.digits cur).2 (Json.digits long).2 := by
  constructor
  · simp only [Json.digits, h.text, takeWhile_digits stops]
  · exact ⟨(List.dropWhile_suffix _).trans h.inside, by
      simp only [Json.digits, Cursor.skipWhile, h.text, dropWhile_digits stops]⟩

/-- An exponent that is too large stops the reader before its last digit, at the same place in both
texts. -/
theorem Longer.exponentDigits (ds : List Char) :
    ∀ {cur long : Cursor} (acc : Nat), Longer whole rest cur long → ds <+: cur.rest →
      (Json.exponentDigits acc long ds).1 = (Json.exponentDigits acc cur ds).1 ∧
        Longer whole rest (Json.exponentDigits acc cur ds).2
          (Json.exponentDigits acc long ds).2 := by
  induction ds with
  | nil =>
    intro cur long acc h _
    exact ⟨rfl, h⟩
  | cons d ds ih =>
    intro cur long acc h hprefix
    obtain ⟨more, hmore⟩ := hprefix
    have hpeek : cur.peek? = some d := by simp [Cursor.peek?, ← hmore]
    have hskip : ds <+: cur.skip.rest := by
      obtain ⟨text, place⟩ := cur
      obtain rfl : d :: ds ++ more = text := hmore
      exact List.prefix_append ds more
    simp only [Json.exponentDigits]
    split
    · exact ⟨rfl, h.skip hpeek⟩
    · exact ih _ (h.skip hpeek) hskip

/-! ## Exponents -/

theorem Longer.ofParts (h : Longer whole rest cur long) (negative : Bool) (word : Nat) (exp : Int) :
    Extends whole rest (Json.ofParts negative word exp cur)
      (Json.ofParts negative word exp long) := by
  unfold Json.ofParts
  split
  · exact h.done _
  · exact .of_fail

/-- What the digits of an exponent make of a number. One too large to be counted makes a zero or is
out of range, by its sign; its other digits are skipped. -/
def exponentEnd (negative : Bool) (word : Nat) (start : Int) (down : Bool) :
    Option Nat × Cursor → Except ParseError (Json × Cursor)
  | (some e, cur) => ofParts negative word (if down then start - e else start + e) cur
  | (none, cur) =>
    if word ≠ 0 ∧ !down then cur.fail .numberOutOfRange
    else .ok (.float (if negative then -0.0 else 0.0), (digits cur).2)

/-- The exponent from behind its sign. -/
def exponentBody (negative : Bool) (word : Nat) (start : Int) (down : Bool) (cur : Cursor) :
    Except ParseError (Json × Cursor) :=
  match cur.peek? with
  | none => cur.fail .eofValue
  | some c =>
    if c.isDigit then exponentEnd negative word start down (exponentDigits 0 cur (digits cur).1)
    else cur.failNext .invalidNumber

theorem exponentPart_minus (negative : Bool) (word : Nat) (start : Int) (h : cur.peek? = some '-') :
    exponentPart negative word start cur = exponentBody negative word start true cur.skip := by
  unfold exponentPart
  rw [h]
  rfl

theorem exponentPart_plus (negative : Bool) (word : Nat) (start : Int) (h : cur.peek? = some '+') :
    exponentPart negative word start cur = exponentBody negative word start false cur.skip := by
  unfold exponentPart
  rw [h]
  rfl

theorem exponentPart_unsigned (negative : Bool) (word : Nat) (start : Int)
    (hminus : cur.peek? ≠ some '-') (hplus : cur.peek? ≠ some '+') :
    exponentPart negative word start cur = exponentBody negative word start false cur := by
  unfold exponentPart
  split
  rename_i heq
  split at heq
  · rename_i hpeek
    exact absurd hpeek hminus
  · rename_i hpeek
    exact absurd hpeek hplus
  · cases heq
    rfl

theorem Longer.exponentEnd (h : Longer whole rest cur long) (stops : Stops rest)
    (negative : Bool) (word : Nat) (start : Int) (down : Bool) (e : Option Nat) :
    Extends whole rest (Json.exponentEnd negative word start down (e, cur))
      (Json.exponentEnd negative word start down (e, long)) := by
  cases e with
  | some e => exact h.ofParts _ _ _
  | none =>
    simp only [Json.exponentEnd]
    split
    · exact .of_fail
    · exact (h.digits stops).2.done _

theorem Longer.exponentBody (h : Longer whole rest cur long) (stops : Stops rest)
    (negative : Bool) (word : Nat) (start : Int) (down : Bool) :
    Extends whole rest (Json.exponentBody negative word start down cur)
      (Json.exponentBody negative word start down long) := by
  unfold Json.exponentBody
  cases hpeek : cur.peek? with
  | none => exact .of_fail
  | some c =>
    have hprefix : (Json.digits cur).1 <+: cur.rest := List.takeWhile_prefix _
    obtain ⟨hvalue, hcursor⟩ := Longer.exponentDigits _ 0 h hprefix
    rw [h.peek? hpeek, (h.digits stops).1]
    dsimp only
    split
    · revert hvalue hcursor
      generalize Json.exponentDigits 0 cur _ = short
      generalize Json.exponentDigits 0 long _ = extended
      obtain ⟨e, after⟩ := short
      obtain ⟨e', after'⟩ := extended
      rintro rfl hcursor
      exact hcursor.exponentEnd stops _ _ _ _ _
    · exact .of_failNext

theorem Longer.exponentPart (h : Longer whole rest cur long) (stops : Stops rest)
    (negative : Bool) (word : Nat) (start : Int) :
    Extends whole rest (Json.exponentPart negative word start cur)
      (Json.exponentPart negative word start long) := by
  cases hpeek : cur.peek? with
  | none =>
    rw [exponentPart_unsigned _ _ _ (by simp [hpeek]) (by simp [hpeek]), Json.exponentBody, hpeek]
    exact .of_fail
  | some c =>
    have hlong := h.peek? hpeek
    by_cases hminus : c = '-'
    · subst hminus
      rw [exponentPart_minus _ _ _ hpeek, exponentPart_minus _ _ _ hlong]
      exact (h.skip hpeek).exponentBody stops _ _ _ _
    · by_cases hplus : c = '+'
      · subst hplus
        rw [exponentPart_plus _ _ _ hpeek, exponentPart_plus _ _ _ hlong]
        exact (h.skip hpeek).exponentBody stops _ _ _ _
      · rw [exponentPart_unsigned _ _ _ (by simp [hpeek, hminus]) (by simp [hpeek, hplus]),
          exponentPart_unsigned _ _ _ (by simp [hlong, hminus]) (by simp [hlong, hplus])]
        exact h.exponentBody stops _ _ _ _

theorem afterDigits_plain (negative : Bool) (word : Nat) (exp : Int)
    (hsmall : cur.peek? ≠ some 'e') (hlarge : cur.peek? ≠ some 'E') :
    afterDigits negative word exp cur = ofParts negative word exp cur := by
  unfold afterDigits
  split
  · rename_i h
    exact absurd h hsmall
  · rename_i h
    exact absurd h hlarge
  · rfl

theorem Longer.afterDigits (h : Longer whole rest cur long) (stops : Stops rest)
    (negative : Bool) (word : Nat) (exp : Int) :
    Extends whole rest (Json.afterDigits negative word exp cur)
      (Json.afterDigits negative word exp long) := by
  have hmark : ∀ c, c = 'e' ∨ c = 'E' → cur.peek? = some c →
      Extends whole rest (Json.afterDigits negative word exp cur)
        (Json.afterDigits negative word exp long) := by
    intro c hc hpeek
    unfold Json.afterDigits
    rw [hpeek, h.peek? hpeek]
    obtain rfl | rfl := hc
    · exact (h.skip hpeek).exponentPart stops _ _ _
    · exact (h.skip hpeek).exponentPart stops _ _ _
  by_cases hsmall : cur.peek? = some 'e'
  · exact hmark 'e' (.inl rfl) hsmall
  · by_cases hlarge : cur.peek? = some 'E'
    · exact hmark 'E' (.inr rfl) hlarge
    · rw [afterDigits_plain _ _ _ hsmall hlarge,
        afterDigits_plain _ _ _ (h.peek?_ne stops hsmall (by simp))
          (h.peek?_ne stops hlarge (by simp))]
      exact h.ofParts _ _ _

theorem Longer.fractionPart (h : Longer whole rest cur long) (stops : Stops rest)
    (negative : Bool) (word : Nat) (exp : Int) :
    Extends whole rest (Json.fractionPart negative word exp cur)
      (Json.fractionPart negative word exp long) := by
  obtain ⟨hdigits, hcursor⟩ := h.digits stops
  unfold Json.fractionPart
  dsimp only
  rw [hdigits]
  split
  · split
    · exact .of_failNext
    · exact .of_fail
  · exact hcursor.afterDigits stops _ _ _

/-! ## From the first digit on -/

/-- What follows the digits in front of the point: a point, an exponent, or what `plain` says. -/
def wholeEnd (negative : Bool) (word : Nat) (exp : Int)
    (plain : Cursor → Except ParseError (Json × Cursor)) (cur : Cursor) :
    Except ParseError (Json × Cursor) :=
  match cur.peek? with
  | some '.' => fractionPart negative word exp cur.skip
  | some 'e' => exponentPart negative word exp cur.skip
  | some 'E' => exponentPart negative word exp cur.skip
  | _ => plain cur

/-- A zero must not be followed by another digit. -/
def zeroEnd (negative : Bool) (cur : Cursor) : Except ParseError (Json × Cursor) :=
  match cur.peek? with
  | some d => if d.isDigit then cur.failNext .invalidNumber else .ok (wholeNumber negative 0, cur)
  | none => .ok (wholeNumber negative 0, cur)

/-- Digits that do not fit a word make the number a double. Those left over count for the exponent,
and their values are lost. -/
def wordEnd (negative : Bool) (word : Nat) (left : List Char) (cur : Cursor) :
    Except ParseError (Json × Cursor) :=
  if left.isEmpty then .ok (wholeNumber negative word, cur)
  else ofParts negative word left.length cur

theorem number_nil (negative : Bool) (h : cur.peek? = none) :
    number negative cur = cur.fail .eofValue := by
  obtain ⟨text, place⟩ := cur
  cases text with
  | nil => rfl
  | cons c cs => cases h

theorem number_zero (negative : Bool) (h : cur.peek? = some '0') :
    number negative cur = wholeEnd negative 0 0 (zeroEnd negative) cur.skip := by
  obtain ⟨text, place⟩ := cur
  cases text with
  | nil => cases h
  | cons c cs =>
    cases h
    unfold number wholeEnd zeroEnd
    simp only [Cursor.next?, Cursor.skip, if_true]
    split <;> simp_all

/-- A number that starts with another digit. As many digits as fit are collected in a word, and the
rest count for the exponent. -/
theorem number_digits (negative : Bool) {c : Char} (h : cur.peek? = some c) (hzero : c ≠ '0')
    (hc : c.isDigit = true) :
    number negative cur =
      wholeEnd negative (absorb 0 (digits cur).1).1 (absorb 0 (digits cur).1).2.length
        (wordEnd negative (absorb 0 (digits cur).1).1 (absorb 0 (digits cur).1).2)
          (digits cur).2 := by
  obtain ⟨text, place⟩ := cur
  cases text with
  | nil => cases h
  | cons d cs =>
    cases h
    exact (if_neg hzero).trans (if_pos hc)

theorem number_other (negative : Bool) {c : Char} (h : cur.peek? = some c)
    (hc : c.isDigit = false) :
    number negative cur = cur.failNext .invalidNumber := by
  have hzero : c ≠ '0' := by
    rintro rfl
    cases hc
  obtain ⟨text, place⟩ := cur
  cases text with
  | nil => cases h
  | cons d cs =>
    cases h
    simp [number, Cursor.next?, hzero, hc]

theorem wholeEnd_plain (negative : Bool) (word : Nat) (exp : Int)
    (plain : Cursor → Except ParseError (Json × Cursor)) (hpoint : cur.peek? ≠ some '.')
    (hsmall : cur.peek? ≠ some 'e') (hlarge : cur.peek? ≠ some 'E') :
    wholeEnd negative word exp plain cur = plain cur := by
  unfold wholeEnd
  split
  · rename_i h
    exact absurd h hpoint
  · rename_i h
    exact absurd h hsmall
  · rename_i h
    exact absurd h hlarge
  · rfl

theorem Longer.wholeEnd (h : Longer whole rest cur long) (stops : Stops rest)
    (negative : Bool) (word : Nat) (exp : Int)
    {plain : Cursor → Except ParseError (Json × Cursor)}
    (hplain : Extends whole rest (plain cur) (plain long)) :
    Extends whole rest (Json.wholeEnd negative word exp plain cur)
      (Json.wholeEnd negative word exp plain long) := by
  have hmark : ∀ c, c = '.' ∨ c = 'e' ∨ c = 'E' → cur.peek? = some c →
      Extends whole rest (Json.wholeEnd negative word exp plain cur)
        (Json.wholeEnd negative word exp plain long) := by
    intro c hc hpeek
    unfold Json.wholeEnd
    rw [hpeek, h.peek? hpeek]
    obtain rfl | rfl | rfl := hc
    · exact (h.skip hpeek).fractionPart stops _ _ _
    · exact (h.skip hpeek).exponentPart stops _ _ _
    · exact (h.skip hpeek).exponentPart stops _ _ _
  by_cases hpoint : cur.peek? = some '.'
  · exact hmark '.' (.inl rfl) hpoint
  · by_cases hsmall : cur.peek? = some 'e'
    · exact hmark 'e' (.inr (.inl rfl)) hsmall
    · by_cases hlarge : cur.peek? = some 'E'
      · exact hmark 'E' (.inr (.inr rfl)) hlarge
      · rw [wholeEnd_plain _ _ _ _ hpoint hsmall hlarge,
          wholeEnd_plain _ _ _ _ (h.peek?_ne stops hpoint (by simp))
            (h.peek?_ne stops hsmall (by simp))
            (h.peek?_ne stops hlarge (by simp))]
        exact hplain

theorem Longer.zeroEnd (h : Longer whole rest cur long) (stops : Stops rest) (negative : Bool) :
    Extends whole rest (Json.zeroEnd negative cur) (Json.zeroEnd negative long) := by
  unfold Json.zeroEnd
  cases hpeek : cur.peek? with
  | some d =>
    rw [h.peek? hpeek]
    dsimp only
    split
    · exact .of_failNext
    · exact h.done _
  | none =>
    cases hlong : long.peek? with
    | none => exact h.done _
    | some d =>
      -- the next character is the first of those that stop the number
      have hdigit : d.isDigit = false := by
        cases hd : d.isDigit with
        | false => rfl
        | true => exact absurd hlong (h.peek?_ne stops (by simp [hpeek]) (.inl hd))
      simpa [hdigit] using h.done _

theorem Longer.wordEnd (h : Longer whole rest cur long) (negative : Bool) (word : Nat)
    (left : List Char) :
    Extends whole rest (Json.wordEnd negative word left cur)
      (Json.wordEnd negative word left long) := by
  unfold Json.wordEnd
  split
  · exact h.done _
  · exact h.ofParts _ _ _

/-- **A number is read in front of a text that stops it as it is read alone.** Where the reader has
to go on, reading alone would have failed; and where it may, what follows is none of what it goes on
with. -/
theorem Longer.number (h : Longer whole rest cur long) (stops : Stops rest) (negative : Bool) :
    Extends whole rest (Json.number negative cur) (Json.number negative long) := by
  cases hpeek : cur.peek? with
  | none =>
    rw [number_nil _ hpeek]
    exact .of_fail
  | some c =>
    have hlong := h.peek? hpeek
    by_cases hzero : c = '0'
    · subst hzero
      rw [number_zero _ hpeek, number_zero _ hlong]
      exact (h.skip hpeek).wholeEnd stops _ _ _ ((h.skip hpeek).zeroEnd stops _)
    · cases hc : c.isDigit with
      | false =>
        rw [number_other _ hpeek hc]
        exact .of_failNext
      | true =>
        obtain ⟨hdigits, hcursor⟩ := h.digits stops
        rw [number_digits _ hpeek hzero hc, number_digits _ hlong hzero hc, hdigits]
        exact hcursor.wholeEnd stops _ _ _ (hcursor.wordEnd _ _ _)

end

/-! ## The text of a number

Numbers are written in one of three ways, as whole numbers, with a point, or with an exponent.
Nothing is said about their value here. -/

/-- There is no blank in the text. -/
def Blankless (cs : List Char) : Prop := ∀ c ∈ cs, isSpace c = false

instance (cs : List Char) : Decidable (Blankless cs) :=
  List.decidableBAll (fun c => isSpace c = false) cs

theorem blankless_append {cs ds : List Char} (hcs : Blankless cs) (hds : Blankless ds) :
    Blankless (cs ++ ds) := by
  intro c hc
  obtain hc | hc := List.mem_append.mp hc
  · exact hcs c hc
  · exact hds c hc

theorem blankless_of_digits {cs : List Char} (h : ∀ c ∈ cs, c.isDigit = true) :
    Blankless cs := by
  intro c hc
  have hdigit := h c hc
  cases hspace : isSpace c with
  | false => rfl
  | true =>
    simp only [isSpace, Bool.or_eq_true, decide_eq_true_eq] at hspace
    obtain ((rfl | rfl) | rfl) | rfl := hspace <;> cases hdigit

theorem blankless_toDigits (n : Nat) : Blankless (Nat.toDigits 10 n) :=
  blankless_of_digits fun _ hc => Nat.isDigit_of_mem_toDigits (by decide) (Nat.le_refl 10) hc

theorem blankless_sublist {cs ds : List Char} (h : cs.Sublist ds) (hds : Blankless ds) :
    Blankless cs :=
  fun c hc => hds c (h.subset hc)

theorem blankless_zeros (n : Nat) : Blankless (Number.zeros n).toList := by
  intro c hc
  rw [Number.zeros, String.toList_ofList] at hc
  rw [List.eq_of_mem_replicate hc]
  rfl

/-- A text that starts with a digit and has no blank in it. The reader of values decides by the
first character what to read, and skips blanks in front. -/
structure Numeral (cs : List Char) : Prop where
  first : ∃ d ds, cs = d :: ds ∧ d.isDigit = true
  blankless : Blankless cs

theorem Numeral.append {cs ds : List Char} (h : Numeral cs) (hds : Blankless ds) :
    Numeral (cs ++ ds) := by
  obtain ⟨d, rest, rfl, hd⟩ := h.first
  exact ⟨⟨d, rest ++ ds, rfl, hd⟩, blankless_append h.blankless hds⟩

theorem Numeral.take {cs : List Char} (h : Numeral cs) {n : Nat} (hn : 0 < n) :
    Numeral (cs.take n) := by
  obtain ⟨d, rest, rfl, hd⟩ := h.first
  refine ⟨?_, blankless_sublist (List.take_sublist _ _) h.blankless⟩
  cases n with
  | zero => cases hn
  | succ n => exact ⟨d, rest.take n, rfl, hd⟩

theorem numeral_toDigits (n : Nat) : Numeral (Nat.toDigits 10 n) := by
  refine ⟨?_, blankless_toDigits n⟩
  obtain ⟨d, ds, hds⟩ := List.exists_cons_of_ne_nil (Nat.toDigits_ne_nil (n := n) (b := 10))
  refine ⟨d, ds, hds, Nat.isDigit_of_mem_toDigits (by decide) (Nat.le_refl 10) (n := n) ?_⟩
  simp [hds]

theorem numeral_zero_append {cs : List Char} (h : Blankless cs) : Numeral ('0' :: cs) := by
  have hzero : Numeral ['0'] := ⟨⟨'0', [], rfl, rfl⟩, by decide⟩
  exact hzero.append h

theorem Numeral.placePoint {suffix : String} {digits : List Char} (point : Int)
    (hsuffix : Blankless suffix.toList) (h : Numeral digits) :
    Numeral (Number.placePoint suffix digits point).toList := by
  have hpoint : Blankless ".".toList := by decide
  unfold Number.placePoint
  split
  · simp only [String.toList_append, String.toList_ofList]
    exact numeral_zero_append
      (blankless_append (blankless_append hpoint (blankless_zeros _)) h.blankless)
  · rename_i hpos
    split
    · simp only [String.toList_append, String.toList_ofList]
      exact (h.append (blankless_zeros _)).append hsuffix
    · simp only [String.toList_append, String.toList_ofList]
      exact ((h.take (by omega)).append hpoint).append
        (blankless_sublist (List.drop_sublist _ _) h.blankless)

theorem Numeral.scientific {digits : List Char} (exponent : Int) (h : Numeral digits) :
    Numeral (Number.scientific digits exponent).toList := by
  have hfraction : Blankless
      (if (digits.drop 1).isEmpty then "" else "." ++ String.ofList (digits.drop 1)).toList := by
    split
    · decide
    · simp only [String.toList_append, String.toList_ofList]
      exact blankless_append (by decide) (blankless_sublist (List.drop_sublist _ _) h.blankless)
  have hmark : Blankless (if exponent < 0 then "e-" else "e+").toList := by
    split
    · decide
    · decide
  have hexponent : Blankless (toString exponent.natAbs).toList := by
    rw [Nat.toString_eq_repr, Nat.toList_repr]
    exact blankless_toDigits _
  simp only [Number.scientific, String.toList_append, String.toList_ofList]
  exact (((h.take Nat.one_pos).append hfraction).append hmark).append hexponent

theorem numeral_layout (d : Decimal) : Numeral (Number.layout numberFormat d).toList := by
  have hsuffix : Blankless numberFormat.wholeSuffix.toList := by decide
  unfold Number.layout
  dsimp only [numberFormat]
  split
  · exact (numeral_toDigits _).placePoint _ hsuffix
  · exact (numeral_toDigits _).scientific _

/-- The text of a number: its digits, perhaps behind a sign. -/
def NumberText (cs : List Char) : Prop := Numeral cs ∨ ∃ ds, cs = '-' :: ds ∧ Numeral ds

theorem numberText_int (n : Int) : NumberText (toString n).toList := by
  rw [Int.toString_eq_repr, Int.repr_eq_if]
  split
  · rw [Nat.toList_repr]
    exact .inl (numeral_toDigits _)
  · rw [String.toList_append, Nat.toList_repr]
    exact .inr ⟨_, rfl, numeral_toDigits _⟩

/-- A double that is not finite has no text as a number, and is written as `null`. -/
theorem numberText_float (x : Float) :
    floatText x = "null" ∨ NumberText (floatText x).toList := by
  unfold floatText Number.finiteText?
  split
  · exact .inl rfl
  · exact .inl rfl
  · rename_i negative mant exp _
    have hmagnitude : Numeral
        (if mant = 0 then "0" ++ numberFormat.wholeSuffix
          else Number.layout numberFormat
            ((Interval.ofBinary mant exp).shortest numberFormat.tie)).toList := by
      split
      · exact numeral_zero_append (by decide)
      · exact numeral_layout _
    rw [Option.getD_some]
    split
    · rw [String.toList_append]
      exact .inr (.inr ⟨_, rfl, hmagnitude⟩)
    · exact .inr (.inl hmagnitude)

def isNumber : Json → Bool
  | .int _ => true
  | .float _ => true
  | _ => false

theorem chars_number {j : Json} (h : j.isNumber = true) :
    chars j = chars .null ∨ NumberText (chars j) := by
  cases j with
  | int n =>
    rw [chars]
    exact .inr (numberText_int n)
  | float x =>
    rw [chars, chars]
    exact (numberText_float x).imp (congrArg String.toList) id
  | _ => cases h

end Stepwise.Json
