import Stepwise.Assign
import Stepwise.Proofs.Assoc

/-!
# Properties that operations keep

A script makes its values from constants, texts and the answers of its host, by operators, fields,
elements, built-ins and assignments. A property of values that all of these keep is `Closed`. **What
an operation gives for values with such a property has it as well, and its faults are about values**
(`Gives`): none of them is one that only the machine raises.

The property is a variable throughout. It is used at two: that the fields of structs are in key
order (`Proofs/OrderedRuns`), and one that says nothing (`Value.Closed.everything`). With the second
all hypotheses go away, and what is left is the part about faults, which `Proofs/JumpCheck` needs:
that no fault of a statement is a missing label.

## Why everything is walked through

A fault is an error of `Except`, and nothing in the type of a function says which faults it may
raise, or which values it may give. So there is a lemma for every function from the operators up, in
the order in which they call each other. Each is a short case split; in a case without calls the
fault is written out, and `Fault.OfValues` of it is true by evaluation. What keeps the rest short
are `map` and `bind` for `Fares`: a function composed of others is done once its parts are.

This module has the functions on values. `Proofs/ClosedStatements` goes on from here to scopes,
evaluations and statements.
-/

namespace Stepwise

/-! ## Closed properties -/

/-- A property of values that a script cannot get out of. Everything but a struct has it as soon as
its parts have it; a struct may have it only if it was made field by field, or read from a text. -/
structure Value.Closed (P : Value → Prop) : Prop where
  null : P .null
  bool (b : Bool) : P (.bool b)
  num (x : Float) : P (.num x)
  str (s : String) : P (.str s)
  error (info : ErrorInfo) : P (.error info)
  array {items : List Value} (h : ∀ v ∈ items, P v) : P (.array items)
  items {items : List Value} (h : P (.array items)) : ∀ v ∈ items, P v
  empty : P (.struct [])
  fields {fields : List (String × Value)} (h : P (.struct fields)) :
    ∀ field ∈ fields, P field.2
  put {fields : List (String × Value)} (h : P (.struct fields)) (name : String) {v : Value}
    (hv : P v) : P (.struct (Assoc.put name v fields))
  parsed {s : String} {j : Json} (h : Json.parse s = .ok j) : P (ofJson j)

/-- The property that says nothing. What is shown of closed properties holds without any hypothesis
on values then. -/
theorem Value.Closed.everything : Closed fun _ => True := by
  constructor <;> intros <;> trivial

/-! ## Results

An operation on values gives a value or a fault. The only fault that takes a value along is one that
a script raised itself. -/

/-- A fault about values, and what it takes along has a property. Three faults are about where the
run goes: a label that is missing, calls that are nested too deep, and a run that was cancelled. The
machine raises these, and nothing else does. -/
def Fault.OfValues (P : Value → Prop) : Fault → Prop
  | .thrown v => P v
  | .undefinedLabel _ | .callDepthExceeded _ | .cancelled => False
  | _ => True

/-- A result with a property, or an error with another. -/
def Fares {ε α : Type} (Q : ε → Prop) (P : α → Prop) : Except ε α → Prop
  | .ok a => P a
  | .error e => Q e

namespace Fares

variable {ε α β : Type} {Q : ε → Prop} {P : α → Prop} {P' : β → Prop} {x : Except ε α}

theorem map {f : α → β} (h : Fares Q P x) (hf : ∀ a, P a → P' (f a)) :
    Fares Q P' (x.map f) := by
  cases x with
  | error e => exact h
  | ok a => exact hf a h

theorem mono {P' : α → Prop} (h : Fares Q P x) (hP : ∀ a, P a → P' a) : Fares Q P' x := by
  cases x with
  | error e => exact h
  | ok a => exact hP a h

theorem bind {k : α → Except ε β} (h : Fares Q P x) (hk : ∀ a, P a → Fares Q P' (k a)) :
    Fares Q P' (x >>= k) := by
  cases x with
  | error e => exact h
  | ok a => exact hk a h

end Fares

/-- The result of an operation has the property `Q`, and its faults are about values with the
property `P`. Where a value is the result, both are the same. -/
abbrev Gives {α : Type} (P : Value → Prop) (Q : α → Prop) (x : Except Fault α) : Prop :=
  Fares (Fault.OfValues P) Q x

/-- What is asked of a result that is no value. -/
abbrev Anything {α : Type} (_ : α) : Prop := True

namespace Value

variable {P : Value → Prop} {l r v : Value}

/-! ### Operators -/

theorem toNumber_gives (v : Value) : Gives P Anything v.toNumber := by
  cases v with
  | str s =>
    rw [toNumber]
    split <;> trivial
  | _ => trivial

theorem divide_gives (f : Float → Float → Float) (x y : Float) :
    Gives P Anything (divide f x y) := by
  unfold divide
  split <;> trivial

theorem Closed.castFloat (closed : Closed P) (v : Value) : Gives P P v.castFloat :=
  (toNumber_gives v).map fun x _ => closed.num x

theorem Closed.castInt (closed : Closed P) (v : Value) : Gives P P v.castInt :=
  (toNumber_gives v).map fun _ _ => closed.num _

theorem Closed.add (closed : Closed P) (hl : P l) (hr : P r) : Gives P P (Value.add l r) := by
  unfold Value.add
  split
  · exact closed.num _
  · refine closed.array fun v hv => ?_
    obtain hv | hv := List.mem_append.mp hv
    · exact closed.items hl v hv
    · exact closed.items hr v hv
  · exact closed.str _
  · exact closed.str _
  · trivial

theorem Closed.arith (closed : Closed P) (op : BinaryOp)
    {f : Float → Float → Except Fault Float} (hf : ∀ x y, Gives P Anything (f x y))
    (l r : Value) : Gives P P (Value.arith op f l r) := by
  unfold Value.arith
  split
  · exact (hf _ _).map fun x _ => closed.num x
  · trivial

theorem Closed.order (closed : Closed P) (op : BinaryOp) (onNumbers : Float → Float → Bool)
    (onTexts : String → String → Bool) (l r : Value) :
    Gives P P (Value.order op onNumbers onTexts l r) := by
  unfold Value.order
  split
  · exact closed.bool _
  · exact closed.bool _
  · trivial

/-- Operators complain about the types of their operands, and about a division by zero. The only
one that makes a container is the sum of two arrays. -/
theorem Closed.binary (closed : Closed P) (op : BinaryOp) (hl : P l) (hr : P r) :
    Gives P P (Value.binary op l r) := by
  cases op with
  | add => exact closed.add hl hr
  | sub | mul =>
    refine closed.arith _ (fun x y => ?_) l r
    trivial
  | div | mod => exact closed.arith _ (divide_gives _) l r
  | lt | gt | le | ge => exact closed.order _ _ _ l r
  | eq | ne | and | or => exact closed.bool _

theorem Closed.unary (closed : Closed P) (op : UnaryOp) (v : Value) :
    Gives P P (Value.unary op v) := by
  cases op with
  | neg | plus =>
    cases v with
    | num x => exact closed.num _
    | _ => trivial
  | int => exact closed.castInt v
  | float => exact closed.castFloat v
  | not | bool => exact closed.bool _
  | str => exact closed.str _

/-! ### Fields and elements -/

theorem toIndex_gives (v : Value) : Gives P Anything v.toIndex := by
  unfold toIndex
  split
  · split <;> trivial
  · trivial

theorem elementAt_gives {α : Type} (items : List α) (index : Int) :
    Gives P (· ∈ items) (elementAt items index) := by
  unfold elementAt
  split
  · rename_i a ha
    split at ha
    · exact List.mem_of_getElem? ha
    · cases ha
  · trivial

theorem Closed.field (closed : Closed P) (h : P v) (name : String) : Gives P P (v.field name) := by
  unfold Value.field
  split
  · split
    · rename_i w hw
      show P w
      exact Assoc.of_get? (closed.fields h) hw
    · trivial
  · split
    · exact closed.str _
    · split
      · exact closed.str _
      · trivial
  · trivial

theorem Closed.element (closed : Closed P) (h : P v) (index : Value) :
    Gives P P (v.element index) := by
  unfold Value.element
  split
  · exact closed.field h _
  · refine (toIndex_gives _).bind fun i _ => ?_
    exact (elementAt_gives _ i).mono fun a ha => closed.items h a ha
  · refine (toIndex_gives _).bind fun i _ => (elementAt_gives _ i).bind fun c _ => ?_
    exact closed.str _
  · trivial

theorem Closed.at? (closed : Closed P) (h : P v) (key : Key) : Gives P P (v.at? key) := by
  cases key with
  | field name => exact closed.field h name
  | index i => exact closed.element h _

theorem Closed.atPath (closed : Closed P) (h : P v) (keys : List Key) :
    Gives P P (v.atPath keys) := by
  induction keys generalizing v with
  | nil => exact h
  | cons key rest ih => exact (closed.at? h key).bind fun w hw => ih hw

/-! ### Writing along a path -/

theorem Closed.emptyFor (closed : Closed P) (key : Option Key) : P (Value.emptyFor key) := by
  unfold Value.emptyFor
  split
  · exact closed.array (List.forall_mem_nil _)
  · exact closed.empty

theorem Closed.opened (closed : Closed P) (h : P v) (key : Key) : P (v.opened key) := by
  unfold Value.opened
  split
  · exact closed.emptyFor _
  · exact h

/-- **Writing into a value keeps the property**, and also leaves it to what a write that fails
further down has made up to there: a run goes on with that when the fault is caught. -/
theorem Closed.setPath (closed : Closed P) {slot : Value} (hslot : P slot) (hv : P v)
    (keys : List Key) :
    Gives P Anything (slot.setPath v keys).1 ∧ P (slot.setPath v keys).2 := by
  induction keys generalizing slot with
  | nil => exact ⟨trivial, hv⟩
  | cons key rest ih =>
    have hopened := closed.opened hslot key
    unfold Value.setPath
    split
    · rename_i fields name heq
      rw [heq] at hopened
      split
      · exact ⟨trivial, closed.put hopened _ hv⟩
      -- the write goes on in the field, or in an empty value if there is none
      · have hchild : P ((Assoc.get? name fields).getD (Value.emptyFor rest.head?)) := by
          cases hget : Assoc.get? name fields with
          | none => exact closed.emptyFor _
          | some w => exact Assoc.of_get? (closed.fields hopened) hget
        obtain ⟨hresult, hset⟩ := ih hchild
        exact ⟨hresult, closed.put hopened _ hset⟩
    · rename_i items i heq
      rw [heq] at hopened
      split
      · exact ⟨trivial, hopened⟩
      · have hchild : P ((items[i.toNat]?).getD (Value.emptyFor rest.head?)) := by
          cases hget : items[i.toNat]? with
          | none => exact closed.emptyFor _
          | some w => exact closed.items hopened w (List.mem_of_getElem? hget)
        obtain ⟨hresult, hset⟩ := ih hchild
        dsimp only
        split
        · refine ⟨hresult, closed.array fun w hw => ?_⟩
          obtain hw | rfl := List.mem_or_eq_of_mem_set hw
          · exact closed.items hopened w hw
          · exact hset
        · refine ⟨hresult, closed.array fun w hw => ?_⟩
          obtain hw | hw := List.mem_append.mp hw
          · exact closed.items hopened w hw
          · exact List.mem_singleton.mp hw ▸ hset
    · exact ⟨trivial, hopened⟩
    · exact ⟨trivial, hopened⟩

theorem Closed.texts (closed : Closed P) (texts : List String) :
    P (.array (texts.map .str)) := by
  refine closed.array fun v hv => ?_
  obtain ⟨s, -, rfl⟩ := List.mem_map.mp hv
  exact closed.str s

end Value

/-! ### Built-ins

Built-ins look at the number and the types of their arguments, which is all they can fail at. So
they are grouped by how they read their arguments. -/

namespace Builtin

variable {P : Value → Prop} {args : List Value}

theorem number_gives (b : Builtin) (v : Value) : Gives P Anything (b.number v) := by
  cases v <;> trivial

theorem text_gives (b : Builtin) (v : Value) : Gives P Anything (b.text v) := by
  cases v <;> trivial

theorem one_gives (b : Builtin) (hargs : ∀ v ∈ args, P v) {f : Value → Except Fault Value}
    (hf : ∀ a, P a → Gives P P (f a)) : Gives P P (b.one args f) := by
  unfold one
  split
  · exact hf _ (hargs _ List.mem_cons_self)
  · trivial

theorem two_gives (b : Builtin) (hargs : ∀ v ∈ args, P v)
    {f : Value → Value → Except Fault Value} (hf : ∀ a c, P a → P c → Gives P P (f a c)) :
    Gives P P (b.two args f) := by
  unfold two
  split
  · exact hf _ _ (hargs _ (by simp)) (hargs _ (by simp))
  · trivial

theorem three_gives (b : Builtin) {f : Value → Value → Value → Except Fault Value}
    (hf : ∀ a c d, Gives P P (f a c d)) : Gives P P (b.three args f) := by
  unfold three
  split
  · exact hf _ _ _
  · trivial

theorem fold_gives (closed : Value.Closed P) (b : Builtin) (f : Float → Float → Float)
    (args : List Value) : Gives P P (b.fold f args) := by
  have hfold : ∀ (rest : List Value) (start : Float),
      Gives P Anything (rest.foldlM (fun acc v => return f acc (← b.number v)) start) := by
    intro rest
    induction rest with
    | nil => exact fun _ => trivial
    | cons v rest ih =>
      intro start
      rw [List.foldlM_cons]
      refine Fares.bind (P := Anything) ?_ fun a _ => ih a
      exact (number_gives b v).bind fun _ _ => trivial
  unfold fold
  dsimp only
  split
  · trivial
  · refine (number_gives b _).bind fun start _ => (hfold _ start).bind fun _ _ => ?_
    exact closed.num _

/-- **Built-ins keep the property.** The one that reads JSON makes values from outside, and no other
makes a struct. -/
theorem apply_gives (closed : Value.Closed P) (clock : String) (b : Builtin)
    (hargs : ∀ v ∈ args, P v) : Gives P P (b.apply clock args) := by
  cases b with
  -- these look at the kind of their argument
  | len => exact one_gives _ hargs fun v _ => by cases v <;> first | exact closed.num _ | trivial
  | keys => exact one_gives _ hargs fun v _ => by cases v <;> first | exact closed.texts _ | trivial
  | contains =>
    exact two_gives _ hargs fun v w _ _ => by cases v <;> first | exact closed.bool _ | trivial
  -- the only one that puts a value it was given into another
  | append =>
    refine two_gives _ hargs fun v w hv hw => ?_
    cases v with
    | array items =>
      refine closed.array fun u hu => ?_
      obtain hu | hu := List.mem_append.mp hu
      · exact closed.items hv u hu
      · exact List.mem_singleton.mp hu ▸ hw
    | _ => trivial
  | join =>
    refine two_gives _ hargs fun v w _ _ => (text_gives _ w).bind fun _ _ => ?_
    cases v with
    | array items => exact closed.str _
    | _ => trivial
  | split =>
    refine two_gives _ hargs fun v w _ _ => (text_gives _ v).bind fun _ _ => ?_
    exact (text_gives _ w).bind fun _ _ => closed.texts _
  | replace =>
    refine three_gives _ fun u v w => (text_gives _ u).bind fun _ _ => ?_
    exact (text_gives _ v).bind fun _ _ => (text_gives _ w).bind fun _ _ => closed.str _
  -- these read texts and numbers, and cannot fail behind that
  | upper | lower | trim =>
    exact one_gives _ hargs fun v _ => (text_gives _ v).bind fun _ _ => closed.str _
  | abs | floor | ceil =>
    exact one_gives _ hargs fun v _ => (number_gives _ v).bind fun _ _ => closed.num _
  | str | jsonStringify => exact one_gives _ hargs fun _ _ => closed.str _
  | int => exact one_gives _ hargs fun v _ => closed.castInt v
  | float => exact one_gives _ hargs fun v _ => closed.castFloat v
  | min | max => exact fold_gives closed _ _ args
  | now =>
    show Gives P P (nowText clock args)
    unfold nowText
    split
    · exact closed.str _
    · trivial
  | jsonParse =>
    refine one_gives _ hargs fun v _ => (text_gives _ v).bind fun s _ => ?_
    cases hparse : Json.parse s with
    | error e => trivial
    | ok j => exact closed.parsed hparse
  -- these two take one argument more or less
  | round =>
    show Gives P P (roundNumber args)
    unfold roundNumber
    split
    · exact (number_gives _ _).bind fun _ _ => closed.num _
    · exact (number_gives _ _).bind fun _ _ => (number_gives _ _).bind fun _ _ => closed.num _
    · trivial
  | substr =>
    show Gives P P (substrText args)
    unfold substrText
    split
    · exact (text_gives _ _).bind fun _ _ => (number_gives _ _).bind fun _ _ => closed.str _
    · refine (text_gives _ _).bind fun _ _ => (number_gives _ _).bind fun _ _ => ?_
      exact (number_gives _ _).bind fun _ _ => closed.str _
    · trivial

end Builtin

end Stepwise
