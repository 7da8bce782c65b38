import Stepwise.Proofs.Assoc
import Stepwise.Web

/-!
# The first element of each name

Where an event stands is said without a stack: **directly in an element stand the events that
nothing but whole elements separates from its opening tag** (`StandsIn`). No matter how tags nest,
repeat or fail to match, an event stands in one element at most. The text of an element is what the
events in it add, in their order, and for each name the texts hold that of the first element
(`get?_elementTexts`).

The reader keeps slots instead of elements. It never writes to a slot that is not there, and two
names never have one slot (`Found.Sound`).

## How the two come together

There are three descriptions of the text of an element. `textOf` collects the events that stand in
it, by `StandsIn`. `textFrom` reads on from behind its opening tag and counts how many elements are
open inside of it. The reader has a stack of slots and writes to the one on top. The first two agree
because the counter decides the grammar of `Level` (`level_iff`, `textFrom_eq`). The last two agree
because the count is the number of entries above a slot on the stack (`Found.foldl_text`).

Documents need not be well formed. A closing tag closes whatever is open, by any name, and one too
many closes nothing; an element that is never closed reaches to the end. All of this is covered,
since neither description looks at the names of closing tags.
-/

namespace Stepwise.Xml

namespace Event

/-- The local name of the element that an event starts. An element that opens and closes at once
starts here as well, though nothing can stand in it. -/
def element? : Event → Option (List Char)
  | .start name => some name
  | .empty name => some name
  | _ => none

def isStart : Event → Bool
  | .start _ => true
  | _ => false

/-- Whether an event neither opens nor closes an element. One that does both at once leaves the open
elements as they are, so it is flat as well. -/
def isFlat : Event → Bool
  | .start _ => false
  | .close => false
  | _ => true

/-- What an event adds to the text of the element it stands in. Text that cannot be unescaped adds
nothing. -/
def content : Event → List Char
  | .text raw => (unescape? raw).getD []
  | .cdata content => content
  | _ => []

end Event

/-! ## Where events stand -/

/-- Events that leave the open elements as they are: whatever is opened among them is closed among
them, and nothing else is. -/
inductive Level : List Event → Prop where
  | nil : Level []
  | flat {e : Event} {es : List Event} (he : e.isFlat = true) (h : Level es) : Level (e :: es)
  | nest (name : List Char) {inner es : List Event} (hinner : Level inner) (h : Level es) :
      Level (.start name :: (inner ++ .close :: es))

/-- Whether events close all of `depth` open elements in the end, and never one more. -/
def settles : Nat → List Event → Bool
  | depth, [] => depth = 0
  | depth, .start _ :: es => settles (depth + 1) es
  | 0, .close :: _ => false
  | depth + 1, .close :: es => settles depth es
  | depth, _ :: es => settles depth es

theorem settles_flat {e : Event} (he : e.isFlat = true) (depth : Nat) (es : List Event) :
    settles depth (e :: es) = settles depth es := by
  cases e with
  | start name => cases he
  | close => cases he
  | empty name => simp [settles]
  | text raw => simp [settles]
  | cdata content => simp [settles]
  | other => simp [settles]

theorem Level.settles_append {es : List Event} (h : Level es) :
    ∀ (depth : Nat) (rest : List Event), settles depth (es ++ rest) = settles depth rest := by
  induction h with
  | nil =>
    intro depth rest
    rfl
  | flat he _ ih =>
    intro depth rest
    rw [List.cons_append, settles_flat he, ih]
  | nest name _ _ ihinner ih =>
    intro depth rest
    simp only [List.cons_append, List.append_assoc, settles, ihinner, ih]

/-- The grammar and the counter agree. Below the level that was there at first, the events split at
the tag that closes the innermost open element. The induction is on a bound for the length: behind
an element that was closed the rest is shorter, but it is not the tail of the list. -/
theorem level_of_settles (n : Nat) :
    ∀ es : List Event, es.length ≤ n →
      (settles 0 es = true → Level es) ∧
      ∀ depth, settles (depth + 1) es = true →
        ∃ inner rest, es = inner ++ .close :: rest ∧ Level inner ∧
          settles depth rest = true := by
  induction n with
  | zero =>
    intro es hlength
    obtain rfl := List.eq_nil_of_length_eq_zero (Nat.le_zero.mp hlength)
    refine ⟨fun _ => .nil, ?_⟩
    intro depth h
    simp [settles] at h
  | succ n ih =>
    intro es hlength
    cases es with
    | nil =>
      refine ⟨fun _ => .nil, ?_⟩
      intro depth h
      simp [settles] at h
    | cons e es =>
      have hes : es.length ≤ n := Nat.le_of_succ_le_succ hlength
      by_cases hflat : e.isFlat = true
      · -- the event moves nothing, so what is known of the others carries over
        constructor
        · intro h
          rw [settles_flat hflat] at h
          exact .flat hflat ((ih es hes).1 h)
        · intro depth h
          rw [settles_flat hflat] at h
          obtain ⟨inner, rest, rfl, hinner, hrest⟩ := (ih es hes).2 depth h
          exact ⟨e :: inner, rest, rfl, .flat hflat hinner, hrest⟩
      · cases e with
        -- behind an opening tag the counter stands one higher, so the rest splits at its closing
        -- tag
        | start name =>
          have hopened : ∀ depth, settles depth (.start name :: es) = true →
              ∃ inner rest, es = inner ++ .close :: rest ∧ Level inner ∧
                settles depth rest = true := by
            intro depth h
            exact (ih es hes).2 depth h
          constructor
          · intro h
            obtain ⟨inner, rest, rfl, hinner, hrest⟩ := hopened 0 h
            have hshort : rest.length ≤ n := by
              simp only [List.length_append, List.length_cons] at hes
              omega
            exact .nest name hinner ((ih rest hshort).1 hrest)
          · intro depth h
            obtain ⟨inner, rest, rfl, hinner, hrest⟩ := hopened (depth + 1) h
            have hshort : rest.length ≤ n := by
              simp only [List.length_append, List.length_cons] at hes
              omega
            obtain ⟨inner', rest', rfl, hinner', hrest'⟩ := (ih rest hshort).2 depth hrest
            exact ⟨.start name :: (inner ++ .close :: inner'), rest', by simp,
              .nest name hinner hinner', hrest'⟩
        -- a closing tag ends the innermost element, which has nothing more in it
        | close =>
          constructor
          · intro h
            simp [settles] at h
          · intro depth h
            exact ⟨[], es, rfl, .nil, h⟩
        | _ => exact absurd rfl hflat

theorem level_iff (es : List Event) : Level es ↔ settles 0 es = true := by
  constructor
  · intro h
    have hsettles := h.settles_append 0 []
    rw [List.append_nil] at hsettles
    rw [hsettles]
    rfl
  · exact (level_of_settles es.length es (Nat.le_refl _)).1

instance : DecidablePred Level := fun es => decidable_of_iff _ (level_iff es).symm

/-- The event at `i` stands directly in the element that the event at `p` opens. This can be
decided, so it can be tried on a document. -/
def StandsIn (es : List Event) (p i : Nat) : Prop :=
  es[p]?.any Event.isStart = true ∧ p < i ∧ Level ((es.take i).drop (p + 1))

instance (es : List Event) (p i : Nat) : Decidable (StandsIn es p i) :=
  inferInstanceAs (Decidable (_ ∧ _ ∧ _))

theorem settles_open {inside : List Event} (h : Level inside) (name : List Char) :
    ∀ (before : List Event) (depth : Nat),
      settles depth (before ++ .start name :: inside) = false := by
  intro before
  induction before with
  | nil =>
    intro depth
    have hinside := h.settles_append (depth + 1) []
    rw [List.append_nil] at hinside
    simp [settles, hinside]
  | cons e before ih =>
    intro depth
    cases e with
    | close => cases depth with
      | zero => rfl
      | succ depth => simp [settles, ih]
    | _ => simp [settles, ih]

/-- Of two elements around an event the outer one has a tag of the inner one in between. It is not
closed there, so what is in between is not whole. -/
theorem StandsIn.not_lt {es : List Event} {p q i : Nat} (hp : StandsIn es p i)
    (hq : StandsIn es q i) : ¬ p < q := by
  intro hlt
  obtain ⟨-, -, hlevel⟩ := hp
  obtain ⟨hstart, hqi, hinside⟩ := hq
  obtain ⟨e, he, hopens⟩ : ∃ e, es[q]? = some e ∧ e.isStart = true := by
    simpa [Option.any_eq_true] using hstart
  cases e with
  | start name =>
    have hget : (es.take i)[q]? = some (.start name) := by
      rw [List.getElem?_take_of_lt hqi, he]
    have hsplit : (es.take i).drop (p + 1) =
        ((es.take i).drop (p + 1)).take (q - (p + 1)) ++ .start name :: (es.take i).drop
          (q + 1) := by
      have hdrop : (es.take i).drop q = .start name :: (es.take i).drop (q + 1) := by
        obtain ⟨hbound, hvalue⟩ := List.getElem?_eq_some_iff.mp hget
        rw [List.drop_eq_getElem_cons hbound, hvalue]
      have hfront : ((es.take i).drop (p + 1)).drop (q - (p + 1)) = (es.take i).drop q := by
        rw [List.drop_drop, Nat.add_sub_cancel' (Nat.succ_le_of_lt hlt)]
      rw [← hdrop, ← hfront, List.take_append_drop]
    rw [level_iff, hsplit, settles_open hinside] at hlevel
    cases hlevel
  | _ => cases hopens

theorem StandsIn.unique {es : List Event} {p q i : Nat} (hp : StandsIn es p i)
    (hq : StandsIn es q i) : p = q :=
  Nat.le_antisymm (Nat.le_of_not_lt (hq.not_lt hp)) (Nat.le_of_not_lt (hp.not_lt hq))

/-! ## The text of an element -/

/-- What the events at the places with a property add, in their order. -/
def contents (place : Nat → Bool) (es : List Event) : List Char :=
  (es.zipIdx.filter fun entry => place entry.2).flatMap fun entry => entry.1.content

/-- The text of the element that the event at `p` opens. -/
def textOf (es : List Event) (p : Nat) : String :=
  String.ofList (contents (fun i => StandsIn es p i) es)

/-- The place of the first element of a name. -/
def first? (name : String) (es : List Event) : Option Nat :=
  es.findIdx? fun e => e.element? = some name.toList

theorem contents_cons (place : Nat → Bool) (e : Event) (es : List Event) :
    contents place (e :: es) =
      (if place 0 then e.content else []) ++ contents (fun i => place (i + 1)) es := by
  have hrest : ((es.zipIdx 1).filter fun entry => place entry.2).flatMap
      (fun entry => entry.1.content) =
      contents (fun i => place (i + 1)) es := by
    rw [contents, List.zipIdx_succ, List.filter_map, List.flatMap_map]
    rfl
  rw [contents, List.zipIdx_cons, List.filter_cons, ← hrest]
  cases place 0 with
  | true => simp
  | false => simp

theorem contents_of_false {place : Nat → Bool} (h : ∀ i, place i = false) (es : List Event) :
    contents place es = [] := by
  simp [contents, h]

theorem contents_append {place : Nat → Bool} {before : List Event}
    (h : ∀ i, i < before.length → place i = false) (es : List Event) :
    contents place (before ++ es) = contents (fun i => place (i + before.length)) es := by
  induction before generalizing place with
  | nil => rfl
  | cons e before ih =>
    have hzero : place 0 = false := h 0 (Nat.succ_pos _)
    have hrest : ∀ i, i < before.length → place (i + 1) = false := by
      intro i hi
      exact h (i + 1) (Nat.succ_lt_succ hi)
    rw [List.cons_append, contents_cons, hzero, ih hrest]
    rfl

/-- The text that events add to an open element with `depth` others open inside of it. Behind its
closing tag nothing is added any more. -/
def textFrom : Nat → List Event → List Char
  | _, [] => []
  | depth, .start _ :: es => textFrom (depth + 1) es
  | 0, .close :: _ => []
  | depth + 1, .close :: es => textFrom depth es
  | 0, e :: es => e.content ++ textFrom 0 es
  | depth + 1, _ :: es => textFrom (depth + 1) es

theorem textFrom_flat {e : Event} (he : e.isFlat = true) (depth : Nat) (es : List Event) :
    textFrom depth (e :: es) = (if depth = 0 then e.content else []) ++ textFrom depth es := by
  cases e with
  | start name => cases he
  | close => cases he
  | _ => cases depth <;> simp [textFrom]

/-- Counting how many elements are open finds the events that stand directly in one. -/
theorem textFrom_eq (es : List Event) :
    ∀ depth, textFrom depth es = contents (fun i => settles depth (es.take i)) es := by
  induction es with
  | nil =>
    intro depth
    rfl
  | cons e es ih =>
    intro depth
    rw [contents_cons]
    simp only [List.take_zero, List.take_succ_cons]
    by_cases hflat : e.isFlat = true
    · simp only [textFrom_flat hflat, settles_flat hflat, ih, settles, decide_eq_true_eq]
    · cases e with
      | start name => simp [textFrom, settles, Event.content, ih]
      | close => cases depth with
        | zero => simp [textFrom, settles, Event.content, contents_of_false]
        | succ depth => simp [textFrom, settles, ih]
      | _ => exact absurd rfl hflat

theorem textOf_start (before after : List Event) (name : List Char) :
    textOf (before ++ .start name :: after) before.length = String.ofList (textFrom 0 after) := by
  have hfront : ∀ i, i < before.length →
      decide (StandsIn (before ++ .start name :: after) before.length i) = false := by
    intro i hi
    refine decide_eq_false ?_
    intro hstands
    exact absurd hstands.2.1 (Nat.not_lt_of_lt hi)
  have hbehind : ∀ i,
      decide (StandsIn (before ++ .start name :: after) before.length (i + 1 + before.length)) =
        settles 0 (after.take i) := by
    intro i
    have hinside : ((before ++ .start name :: after).take (i + 1 + before.length)).drop
        (before.length + 1) = after.take i := by
      rw [Nat.add_comm (i + 1), List.take_length_add_append, ← List.drop_drop, List.drop_left]
      rfl
    have hlt : before.length < i + 1 + before.length := Nat.lt_add_of_pos_left (Nat.succ_pos i)
    rw [Bool.eq_iff_iff, decide_eq_true_iff, StandsIn, hinside, level_iff]
    simp [Event.isStart, hlt]
  rw [textOf, contents_append hfront, contents_cons, textFrom_eq]
  simp [Event.content, hbehind]

theorem textOf_not_start {es : List Event} {p : Nat} (h : es[p]?.any Event.isStart = false) :
    textOf es p = "" := by
  have hnone : ∀ i, decide (StandsIn es p i) = false := by
    intro i
    simp [StandsIn, h]
  rw [textOf, contents_of_false hnone, String.ofList_nil]

theorem textOf_succ (e : Event) (es : List Event) (p : Nat) :
    textOf (e :: es) (p + 1) = textOf es p := by
  have hzero : decide (StandsIn (e :: es) (p + 1) 0) = false := by simp [StandsIn]
  have hsucc : ∀ i, decide (StandsIn (e :: es) (p + 1) (i + 1)) = decide (StandsIn es p i) := by
    intro i
    refine decide_eq_decide.mpr ?_
    simp [StandsIn]
  simp [textOf, contents_cons, hzero, hsucc]

theorem first?_cons (name : String) (e : Event) (es : List Event) :
    first? name (e :: es) =
      if e.element? = some name.toList then some 0 else (first? name es).map (· + 1) := by
  simp [first?, List.findIdx?_cons]

/-! ## Slots

A name gets a slot when its first element starts, and keeps it. Later elements of that name are on
the stack without a slot, so that their closing tags find something to close, and their text goes
nowhere. -/

namespace Found

variable {f : Found}

/-- What holds of the slots at any time. It is what makes the list of texts safe to write to by
index, and the texts of two names different things. -/
structure Sound (f : Found) : Prop where
  /-- Text goes to slots that are there. -/
  opened : ∀ slot, some slot ∈ f.opened → slot < f.texts.length
  /-- Names have slots that are there. -/
  slots : ∀ name slot, Assoc.get? name f.slots = some slot → slot < f.texts.length
  /-- Two names never have one slot. -/
  distinct : ∀ a b slot, Assoc.get? a f.slots = some slot →
    Assoc.get? b f.slots = some slot → a = b

theorem reserve_cases (f : Found) (name : List Char) :
    (∃ slot, Assoc.get? (String.ofList name) f.slots = some slot ∧
      f.reserve name = (none, f)) ∨
    Assoc.get? (String.ofList name) f.slots = none ∧ f.reserve name = (some f.texts.length,
      { f with
        slots := Assoc.put (String.ofList name) f.texts.length f.slots
        texts := f.texts ++ [""] }) := by
  cases hget : Assoc.get? (String.ofList name) f.slots with
  | some slot => exact .inl ⟨slot, rfl, by simp [reserve, Assoc.contains, hget]⟩
  | none => exact .inr ⟨rfl, by simp [reserve, Assoc.contains, hget]⟩

theorem append_slots (f : Found) (content : List Char) : (f.append content).slots = f.slots := by
  unfold append
  split <;> rfl

theorem append_opened (f : Found) (content : List Char) : (f.append content).opened = f.opened := by
  unfold append
  split <;> rfl

theorem append_length (f : Found) (content : List Char) :
    (f.append content).texts.length = f.texts.length := by
  unfold append
  split
  · simp
  · rfl

theorem append_text (f : Found) (content : List Char) {slot : Nat} (h : slot < f.texts.length) :
    (f.append content).texts.getD slot "" =
      f.texts.getD slot "" ++ if f.opened.head? = some (some slot) then String.ofList content
      else "" := by
  unfold append
  split
  · rename_i top below hopened
    rw [hopened]
    by_cases htop : top = slot
    · subst htop
      simp [h]
    · simp [htop]
  · rename_i hnone
    have hhead : f.opened.head? ≠ some (some slot) := by
      intro hhead
      obtain ⟨below, hopened⟩ := List.head?_eq_some_iff.mp hhead
      exact hnone slot below hopened
    simp [hhead]

theorem append_nil (f : Found) : f.append [] = f := by
  have hsame : (fun text : String => text ++ String.ofList []) = id := by
    funext text
    simp
  unfold append
  split
  · rw [hsame, List.modify_id]
  · rfl

theorem step_of_content {e : Event} (helement : e.element? = none) (hclose : e ≠ .close) :
    f.step e = f.append e.content := by
  cases e with
  | start name => cases helement
  | empty name => cases helement
  | close => exact absurd rfl hclose
  | text raw =>
    simp only [step, Event.content]
    cases unescape? raw with
    | some content => rfl
    | none => exact f.append_nil.symm
  | cdata content => rfl
  | other => exact f.append_nil.symm

/-- **What one event does to a slot that is there**: it gets the text if the innermost open element
has that slot. -/
theorem step_text (e : Event) {slot : Nat} (h : slot < f.texts.length) :
    (f.step e).texts.getD slot "" =
      f.texts.getD slot "" ++ if f.opened.head? = some (some slot) then String.ofList e.content
      else "" := by
  have hreserve : ∀ name, (f.reserve name).2.texts.getD slot "" = f.texts.getD slot "" := by
    intro name
    obtain ⟨_, _, heq⟩ | ⟨_, heq⟩ := f.reserve_cases name
    · rw [heq]
    · rw [heq]
      simp [List.getElem?_append_left h]
  cases e with
  | start name => simpa [step, Event.content] using hreserve name
  | empty name => simpa [step, Event.content] using hreserve name
  | close => simp [step, Event.content]
  | text raw => rw [step_of_content rfl (by simp), append_text _ _ h]
  | cdata content => exact f.append_text content h
  | other => rw [step_of_content rfl (by simp), append_text _ _ h]

theorem step_length (e : Event) : f.texts.length ≤ (f.step e).texts.length := by
  have hreserve : ∀ name, f.texts.length ≤ (f.reserve name).2.texts.length := by
    intro name
    obtain ⟨_, _, heq⟩ | ⟨_, heq⟩ := f.reserve_cases name
    · simp [heq]
    · simp [heq]
  cases e with
  | start name => exact hreserve name
  | empty name => exact hreserve name
  | close => simp [step]
  | text raw =>
    rw [step_of_content rfl (by simp)]
    simp [append_length]
  | cdata content => simp [step, append_length]
  | other => simp [step]

theorem step_slots_some {name : String} {slot : Nat} (h : Assoc.get? name f.slots = some slot)
    (e : Event) : Assoc.get? name (f.step e).slots = some slot := by
  have hreserve : ∀ other, Assoc.get? name (f.reserve other).2.slots = some slot := by
    intro other
    obtain ⟨_, _, heq⟩ | ⟨hnew, heq⟩ := f.reserve_cases other
    · rw [heq, h]
    · have hne : String.ofList other ≠ name := by
        rintro rfl
        rw [h] at hnew
        cases hnew
      rw [heq, Assoc.get?_put, if_neg hne, h]
  cases e with
  | start other => exact hreserve other
  | empty other => exact hreserve other
  | close => exact h
  | text raw => rw [step_of_content rfl (by simp), append_slots, h]
  | cdata content => rw [step, append_slots, h]
  | other => exact h

theorem step_slots_none {name : String} (h : Assoc.get? name f.slots = none) {e : Event}
    (he : e.element? ≠ some name.toList) : Assoc.get? name (f.step e).slots = none := by
  have hreserve : ∀ other, other ≠ name.toList →
      Assoc.get? name (f.reserve other).2.slots = none := by
    intro other hother
    obtain ⟨_, _, heq⟩ | ⟨_, heq⟩ := f.reserve_cases other
    · rw [heq, h]
    · have hne : String.ofList other ≠ name := by
        rintro rfl
        exact hother String.toList_ofList.symm
      rw [heq, Assoc.get?_put, if_neg hne, h]
  cases e with
  | start other => exact hreserve other (fun heq => he (congrArg some heq))
  | empty other => exact hreserve other (fun heq => he (congrArg some heq))
  | close => exact h
  | text raw => rw [step_of_content rfl (by simp), append_slots, h]
  | cdata content => rw [step, append_slots, h]
  | other => exact h

theorem reserve_new {name : String} (h : Assoc.get? name f.slots = none) :
    f.reserve name.toList = (some f.texts.length,
      { f with slots := Assoc.put name f.texts.length f.slots, texts := f.texts ++ [""] }) := by
  obtain ⟨_, hknown, _⟩ | ⟨_, heq⟩ := f.reserve_cases name.toList
  · rw [String.ofList_toList, h] at hknown
    cases hknown
  · rw [heq, String.ofList_toList]

theorem Sound.empty : Sound .empty where
  opened slot h := by cases h
  slots name slot h := by cases h
  distinct a b slot h := by cases h

theorem Sound.reserve (h : f.Sound) (name : List Char) : (f.reserve name).2.Sound := by
  obtain ⟨_, _, heq⟩ | ⟨hnew, heq⟩ := f.reserve_cases name
  · rw [heq]
    exact h
  · rw [heq]
    have hlength : (f.texts ++ [""]).length = f.texts.length + 1 := by simp
    constructor
    · intro slot hslot
      exact hlength ▸ Nat.lt_succ_of_lt (h.opened slot hslot)
    · intro other slot hslot
      rw [Assoc.get?_put] at hslot
      split at hslot
      · cases hslot
        exact hlength ▸ Nat.lt_succ_self _
      · exact hlength ▸ Nat.lt_succ_of_lt (h.slots other slot hslot)
    · intro a b slot ha hb
      -- the slots of the names that were there lie below the new one
      rw [Assoc.get?_put] at ha hb
      split at ha <;> split at hb
      · rename_i heqa heqb
        exact heqa.symm.trans heqb
      · cases ha
        exact absurd (h.slots b _ hb) (Nat.lt_irrefl _)
      · cases hb
        exact absurd (h.slots a _ ha) (Nat.lt_irrefl _)
      · exact h.distinct a b slot ha hb

theorem Sound.append (h : f.Sound) (content : List Char) : (f.append content).Sound where
  opened slot hslot := by
    rw [append_opened] at hslot
    rw [append_length]
    exact h.opened slot hslot
  slots name slot hslot := by
    rw [append_slots] at hslot
    rw [append_length]
    exact h.slots name slot hslot
  distinct a b slot ha hb := by
    rw [append_slots] at ha hb
    exact h.distinct a b slot ha hb

/-- **What one event keeps.** Only the start of an element gives a slot to a name, and it takes one
that no name has; all other events add to a slot or take one from the stack. -/
theorem Sound.step (h : f.Sound) (e : Event) : (f.step e).Sound := by
  cases e with
  | start name =>
    have hreserve := h.reserve name
    refine ⟨?_, hreserve.slots, hreserve.distinct⟩
    intro slot hslot
    obtain ⟨_, _, heq⟩ | ⟨_, heq⟩ := f.reserve_cases name
    · simp only [Found.step, heq] at hslot ⊢
      obtain hhead | htail := List.mem_cons.mp hslot
      · cases hhead
      · exact h.opened slot htail
    · simp only [Found.step, heq] at hslot ⊢
      obtain hhead | htail := List.mem_cons.mp hslot
      · cases hhead
        simp
      · simpa using Nat.lt_succ_of_lt (h.opened slot htail)
  | empty name => exact h.reserve name
  | close =>
    refine ⟨?_, h.slots, h.distinct⟩
    intro slot hslot
    exact h.opened slot (List.mem_of_mem_drop hslot)
  | text raw =>
    rw [step_of_content rfl (by simp)]
    exact h.append _
  | cdata content => exact h.append content
  | other => exact h

theorem Sound.foldl (h : f.Sound) (es : List Event) : (es.foldl Found.step f).Sound := by
  induction es generalizing f with
  | nil => exact h
  | cons e es ih => exact ih (h.step e)

/-! ## The text of a slot -/

theorem reserve_opened (f : Found) (name : List Char) : (f.reserve name).2.opened = f.opened := by
  obtain ⟨_, _, heq⟩ | ⟨_, heq⟩ := f.reserve_cases name
  · rw [heq]
  · rw [heq]

/-- What an event does to the open elements. An element that is opened has none of the slots that
were there: its slot is a new one, or it has none. -/
theorem step_opened (f : Found) (e : Event) :
    (∃ name top, e = .start name ∧ (f.step e).opened = top :: f.opened ∧
      ∀ slot, slot < f.texts.length → top ≠ some slot) ∨
    (e = .close ∧ (f.step e).opened = f.opened.drop 1) ∨
    (e.isFlat = true ∧ (f.step e).opened = f.opened) := by
  cases e with
  | start name =>
    refine .inl ⟨name, (f.reserve name).1, rfl, congrArg _ (f.reserve_opened name), ?_⟩
    intro slot hslot
    obtain ⟨_, _, heq⟩ | ⟨_, heq⟩ := f.reserve_cases name
    · simp [heq]
    · simp [heq, Nat.ne_of_gt hslot]
  | close => exact .inr (.inl ⟨rfl, rfl⟩)
  | empty name => exact .inr (.inr ⟨rfl, f.reserve_opened name⟩)
  | text raw => exact .inr (.inr ⟨rfl, by rw [step_of_content rfl (by simp), append_opened]⟩)
  | cdata content => exact .inr (.inr ⟨rfl, f.append_opened content⟩)
  | other => exact .inr (.inr ⟨rfl, rfl⟩)

/-- A slot that has left the stack does not come back. -/
theorem step_absent {slot : Nat} (hslot : slot < f.texts.length) (h : some slot ∉ f.opened)
    (e : Event) : some slot ∉ (f.step e).opened := by
  obtain ⟨_, top, _, hopened, hnew⟩ | ⟨_, hopened⟩ | ⟨_, hopened⟩ := f.step_opened e
  · rw [hopened, List.mem_cons, not_or]
    exact ⟨(hnew slot hslot).symm, h⟩
  · rw [hopened]
    intro hmem
    exact h (List.mem_of_mem_drop hmem)
  · rw [hopened]
    exact h

theorem foldl_text_absent (es : List Event) :
    ∀ {f : Found} {slot : Nat}, slot < f.texts.length → some slot ∉ f.opened →
      (es.foldl step f).texts.getD slot "" = f.texts.getD slot "" := by
  induction es with
  | nil =>
    intro f slot _ _
    rfl
  | cons e es ih =>
    intro f slot hslot habsent
    have hhead : f.opened.head? ≠ some (some slot) := by
      intro hhead
      exact habsent (List.mem_of_mem_head? hhead)
    rw [List.foldl_cons,
      ih (Nat.lt_of_lt_of_le hslot (step_length e)) (step_absent hslot habsent e),
      step_text e hslot, if_neg hhead, String.append_empty]

/-- **A slot of an open element gets the text that stands directly in that element.** The induction
is on the events; the elements that are open inside are those of `above`. -/
theorem foldl_text (es : List Event) :
    ∀ {f : Found} {slot : Nat} {above below : List (Option Nat)}, slot < f.texts.length →
      f.opened = above ++ some slot :: below → some slot ∉ above → some slot ∉ below →
      (es.foldl step f).texts.getD slot "" =
        f.texts.getD slot "" ++ String.ofList (textFrom above.length es) := by
  induction es with
  | nil =>
    intro f slot above below _ _ _ _
    simp [textFrom]
  | cons e es ih =>
    intro f slot above below hslot hsplit habove hbelow
    have hslot' : slot < (f.step e).texts.length := Nat.lt_of_lt_of_le hslot (step_length e)
    rw [List.foldl_cons]
    obtain ⟨name, top, rfl, hopened, hnew⟩ | ⟨rfl, hopened⟩ | ⟨hflat, hopened⟩ :=
      f.step_opened e
    · have htop : some slot ∉ top :: above := by
        rw [List.mem_cons, not_or]
        exact ⟨(hnew slot hslot).symm, habove⟩
      rw [ih hslot' (hopened.trans (congrArg _ hsplit)) htop hbelow, step_text _ hslot]
      simp [Event.content, textFrom]
    · cases above with
      | nil =>
        -- the element itself is closed
        have hgone : some slot ∉ (f.step .close).opened := by
          rw [hopened, hsplit]
          exact hbelow
        rw [foldl_text_absent es hslot' hgone, step_text _ hslot]
        simp [Event.content, textFrom]
      | cons top above =>
        have habove' : some slot ∉ above := fun hmem => habove (List.mem_cons_of_mem _ hmem)
        have hsplit' : (f.step .close).opened = above ++ some slot :: below := by
          rw [hopened, hsplit]
          rfl
        rw [ih hslot' hsplit' habove' hbelow, step_text _ hslot]
        simp [Event.content, textFrom]
    · rw [ih hslot' (hopened.trans hsplit) habove hbelow, step_text _ hslot, textFrom_flat hflat]
      cases above with
      | nil => simp [hsplit, String.append_assoc]
      | cons top above =>
        have htop : top ≠ some slot := fun heq => habove (heq ▸ List.mem_cons_self)
        simp [hsplit, htop]

/-! ## The texts by name -/

theorem get?_byName (f : Found) (name : String) :
    Assoc.get? name f.byName = (Assoc.get? name f.slots).map fun slot => f.texts.getD slot "" := by
  unfold byName
  induction f.slots with
  | nil => rfl
  | cons entry slots ih =>
    simp only [List.map_cons, Assoc.get?, ih]
    split <;> rfl

theorem foldl_slots_some {name : String} {slot : Nat} (es : List Event) :
    ∀ {f : Found}, Assoc.get? name f.slots = some slot →
      Assoc.get? name (es.foldl step f).slots = some slot := by
  induction es with
  | nil =>
    intro f h
    exact h
  | cons e es ih =>
    intro f h
    exact ih (step_slots_some h e)

/-- The first element of a new name gives it its text, which it keeps. If it is closed at once its
slot never gets on the stack, and the text stays empty. -/
theorem get?_byName_first {name : String} (hf : f.Sound) (hnew : Assoc.get? name f.slots = none)
    {e : Event} (he : e.element? = some name.toList) (es : List Event) :
    Assoc.get? name ((e :: es).foldl step f).byName =
      some (if e.isStart then String.ofList (textFrom 0 es) else "") := by
  -- the new slot is behind all that are there, so no element that is open has it
  have hfresh : some f.texts.length ∉ f.opened := by
    intro hmem
    exact absurd (hf.opened _ hmem) (Nat.lt_irrefl _)
  have hname : Assoc.get? name (Assoc.put name f.texts.length f.slots) = some f.texts.length := by
    rw [Assoc.get?_put, if_pos rfl]
  have hlength : f.texts.length < (f.texts ++ [""]).length := by simp
  have hblank : (f.texts ++ [""]).getD f.texts.length "" = "" := by simp
  rw [List.foldl_cons, get?_byName]
  cases e with
  -- the slot is open once, at the top, and takes all text until it is closed
  | start other =>
    obtain rfl : other = name.toList := Option.some.inj he
    have hstep : f.step (.start name.toList) =
        ⟨Assoc.put name f.texts.length f.slots, f.texts ++ [""],
          some f.texts.length :: f.opened⟩ := by
      simp only [step, reserve_new hnew]
    have habove : some f.texts.length ∉ ([] : List (Option Nat)) := List.not_mem_nil
    rw [hstep, foldl_slots_some es hname, Option.map_some,
      foldl_text es hlength rfl habove hfresh, hblank]
    simp [Event.isStart]
  | empty other =>
    obtain rfl : other = name.toList := Option.some.inj he
    have hstep : f.step (.empty name.toList) =
        ⟨Assoc.put name f.texts.length f.slots, f.texts ++ [""], f.opened⟩ := by
      simp only [step, reserve_new hnew]
    have htext := foldl_text_absent es
      (f := ⟨Assoc.put name f.texts.length f.slots, f.texts ++ [""], f.opened⟩) hlength hfresh
    rw [hstep, foldl_slots_some es hname, Option.map_some, htext, hblank]
    simp [Event.isStart]
  | _ => cases he

/-- **A name that is new gets the text of the first element that has it**, if there is one. The
slots that are there already may be any, so the statement goes through the induction as it is. -/
theorem get?_byName_foldl {name : String} (es : List Event) :
    ∀ {f : Found}, f.Sound → Assoc.get? name f.slots = none →
      Assoc.get? name (es.foldl step f).byName = (first? name es).map (textOf es) := by
  induction es with
  | nil =>
    intro f _ hnew
    simp [get?_byName, hnew, first?]
  | cons e es ih =>
    intro f hf hnew
    rw [first?_cons]
    by_cases he : e.element? = some name.toList
    · rw [get?_byName_first hf hnew he, if_pos he, Option.map_some]
      cases hstart : e.isStart with
      | true =>
        cases e with
        | start other => exact congrArg some (textOf_start [] es other).symm
        | _ => cases hstart
      | false => rw [textOf_not_start (by simpa using hstart), if_neg (by simp)]
    -- the name is as new behind this event as before it, and its first element is one place nearer
    · rw [if_neg he, List.foldl_cons, ih (hf.step e) (step_slots_none hnew he), Option.map_map]
      congr 1
      funext p
      exact (textOf_succ e es p).symm

end Found

theorem found_sound (es : List Event) : (found es).Sound := Found.Sound.empty.foldl es

theorem get?_elementTexts (es : List Event) (name : String) :
    Assoc.get? name (elementTexts es) = (first? name es).map (textOf es) :=
  Found.get?_byName_foldl es .empty rfl

/-- **An output is the text of the first element of its name.** Whatever the events are, a name has
a text if an element of that name starts among them; it is what stands directly in the first one,
and an event stands directly in one element at most, so that nested elements and later ones of the
same name add nothing. An element that opens and closes at once is empty. -/
theorem outputs_first_elements (es : List Event) (name xml : String) (names : List String) :
    Assoc.get? name (elementTexts es) = (first? name es).map (textOf es) ∧
    (Assoc.get? name (elementTexts es) = none ↔ ∀ e ∈ es, e.element? ≠ some name.toList) ∧
    (∀ p q i, StandsIn es p i → StandsIn es q i → p = q) ∧
    (∀ p other, es[p]? = some (.empty other) → textOf es p = "") ∧
    (found es).Sound ∧
    Web.outputs (.str xml) names = names.map fun output =>
      ((first? output (events xml)).map (textOf (events xml))).map .str := by
  refine ⟨get?_elementTexts es name, ?_, fun p q i hp hq => hp.unique hq, ?_,
    found_sound es, ?_⟩
  · simp [get?_elementTexts, first?]
  · intro p other hp
    exact textOf_not_start (by simp [hp, Event.isStart])
  · simp [Web.outputs, get?_elementTexts]

/-- Elements of one name inside of each other and one after the other, an empty element, and text in
front of an end that is missing. -/
def namesakes : String := "<A><B>outer<B>inner</B> again</B><C><B>later</B><D/>left"

/-- The text of the outer element is put together around the inner one. -/
theorem outputs_first_elements_namesakes :
    StandsIn (events namesakes) 1 2 ∧ (events namesakes)[12]? = some (.empty ['D']) ∧
      Assoc.get? "B" (elementTexts (events namesakes)) = some "outeragain" ∧
      (∀ q, StandsIn (events namesakes) q 2 → 1 = q) ∧ textOf (events namesakes) 12 = "" := by
  have hstands : StandsIn (events namesakes) 1 2 := by decide +kernel
  have hempty : (events namesakes)[12]? = some (.empty ['D']) := by decide +kernel
  obtain ⟨htext, -, hunique, hnothing, -, -⟩ :=
    outputs_first_elements (events namesakes) "B" namesakes []
  refine ⟨hstands, hempty, htext.trans (by decide +kernel), ?_, hnothing 12 _ hempty⟩
  intro q hq
  exact hunique 1 q 2 hstands hq

end Stepwise.Xml
