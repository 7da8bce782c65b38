import Stepwise.Json.Parser
import Stepwise.Value.Basic

/-!
# Tagged JSON

A form of JSON from which values can be read back, kinds included: an object with the kind under `t`
and the content under `v`, which null does without. A number is always written as a double.
-/

namespace Stepwise.Value

/-- The object of a kind and its content. -/
def tag (kind : String) (content : Json) : Json :=
  .object [("t", .str kind), ("v", content)]

mutual

def toTagged : Value → Json
  | .null => .object [("t", .str "Null")]
  | .bool b => tag "Bool" (.bool b)
  -- null is no content of a number, so one that is not finite is not read back
  | .num x => tag "Num" (if x.isFinite then .float x else .null)
  | .str s => tag "Str" (.str s)
  | .array items => tag "Array" (.array (toTaggedItems items))
  | .struct fields => tag "Struct" (.object (toTaggedFields fields))
  | .error info =>
    tag "Error" (.object [("code", .str info.code), ("message", .str info.message)])

def toTaggedItems : List Value → List Json
  | [] => []
  | v :: rest => toTagged v :: toTaggedItems rest

def toTaggedFields : List (String × Value) → List (String × Json)
  | [] => []
  | (k, v) :: rest => (k, toTagged v) :: toTaggedFields rest

end

/-- A number in tagged form: any JSON number. -/
def numOfJson? : Json → Option Float
  | .int n => some (Float.ofInt n)
  | .float x => some x
  | _ => none

/-- The one member with this key, `none` inside if there is none. A repeated key fails. -/
def only? (key : String) (members : List (String × Json)) : Option (Option Json) :=
  match members.filter fun entry => entry.1 = key with
  | [] => some none
  | [entry] => some (some entry.2)
  | _ => none

/-- The code and message of an error: an object that has both, or the array of the two. -/
def errorOfJson? : Json → Option ErrorInfo
  | .object members =>
    match only? "code" members, only? "message" members with
    | some (some (.str code)), some (some (.str message)) => some ⟨code, message⟩
    | _, _ => none
  | .array [.str code, .str message] => some ⟨code, message⟩
  | _ => none

/-- The kinds of values, in the order in which they are numbered. -/
def kinds : List String := ["Null", "Bool", "Num", "Str", "Array", "Struct", "Error"]

/-- A kind is given by its name. In content that came in front of its own tag it may also be given
by its number. -/
def kind? (numbered : Bool) : Json → Option String
  | .str name => some name
  | .int n => if numbered ∧ 0 ≤ n then kinds[n.toNat]? else none
  | _ => none

/-- A tagged value taken apart. -/
structure TagParts where
  kind : Json
  content : Option Json
  /-- Whether the content stands in front of the tag. -/
  contentFirst : Bool

/-- A tagged value is an object with a member `t` and possibly `v`, or the array of the two. -/
def tagParts? : Json → Option TagParts
  | .object members =>
    match only? "t" members, only? "v" members with
    | some (some kind), some content =>
      let tagged := members.filter fun entry => entry.1 = "t" || entry.1 = "v"
      some ⟨kind, content, (tagged.head?.map (·.1)) == some "v"⟩
    | _, _ => none
  | .array [kind, content] => some ⟨kind, some content, false⟩
  | _ => none

/-- Read a tagged value. `fuel` bounds the nesting, and `numbered` says whether kinds may be given
by number. -/
def ofTaggedWithin (fuel : Nat) (numbered : Bool) (j : Json) : Option Value :=
  match fuel with
  | 0 => none
  | fuel + 1 =>
    match tagParts? j with
    | none => none
    | some parts =>
      let inner := ofTaggedWithin fuel (numbered || parts.contentFirst)
      match kind? numbered parts.kind, parts.content with
      | some "Null", none => some .null
      | some "Null", some .null => some .null
      | some "Bool", some (.bool b) => some (.bool b)
      | some "Num", some content => (numOfJson? content).map .num
      | some "Str", some (.str s) => some (.str s)
      | some "Array", some (.array items) => (items.mapM inner).map .array
      | some "Struct", some (.object members) =>
        (members.mapM fun entry => (inner entry.2).map fun v => (entry.1, v)).map
          fun fields => .struct (Assoc.ofList fields)
      | some "Error", some content => (errorOfJson? content).map .error
      | _, _ => none

/-- The value that a tagged tree stands for, if it is one. Other members of the objects are
ignored. -/
def ofTagged? (j : Json) : Option Value :=
  ofTaggedWithin (j.depth + 1) false j

def ofTaggedText? (s : String) : Option Value :=
  match Json.parseRaw s with
  | .ok j => ofTagged? j
  | .error _ => none

end Stepwise.Value
