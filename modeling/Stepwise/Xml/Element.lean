import Stepwise.Assoc
import Stepwise.Xml.Event

/-!
# The text of elements

Of each local name the first element in document order counts. Its text is what stands directly in
it, put together: text inside of nested elements belongs to those, and text whose entities cannot be
read is left out.
-/

namespace Stepwise.Xml

structure Found where
  /-- The slot of the first element of each name. -/
  slots : Assoc Nat
  texts : List String
  /-- The open elements, innermost first: the slot they contribute to, or nothing for an element
  that was not the first of its name. -/
  opened : List (Option Nat)

namespace Found

def empty : Found := ⟨[], [], []⟩

/-- Meet an element: it gets a slot if it is the first of its name. -/
def reserve (f : Found) (name : List Char) : Option Nat × Found :=
  let name := String.ofList name
  if Assoc.contains name f.slots then (none, f)
  else
    (some f.texts.length,
      { f with slots := Assoc.put name f.texts.length f.slots, texts := f.texts ++ [""] })

/-- Add text to the innermost open element. -/
def append (f : Found) (content : List Char) : Found :=
  match f.opened with
  | some slot :: _ => { f with texts := f.texts.modify slot (· ++ String.ofList content) }
  | _ => f

def step (f : Found) : Event → Found
  | .start name =>
    let (slot, f) := f.reserve name
    { f with opened := slot :: f.opened }
  | .empty name => (f.reserve name).2
  | .close => { f with opened := f.opened.drop 1 }
  | .text raw =>
    match unescape? raw with
    | some content => f.append content
    | none => f
  | .cdata content => f.append content
  | .other => f

def byName (f : Found) : Assoc String :=
  f.slots.map fun entry => (entry.1, f.texts.getD entry.2 "")

end Found

def found (es : List Event) : Found := es.foldl Found.step .empty

def elementTexts (es : List Event) : Assoc String := (found es).byName

end Stepwise.Xml
