import Stepwise.Proofs.Trees
import Stepwise.Script.Encode

/-!
# The tree of a script

How the parts of a script stand in its tree: a list as the array of its items, an absent part as
null, which is the tree of nothing else. No object in the tree has a key twice.

The encoder is a mutual recursion with a function for every kind of list, and it is compiled by
well-founded recursion, so it is opened through its equations only. The first section turns its
lists and options into `map` and `elim`, for which the readers have one lemma each. The second says
that keys are different, by recursion over the script; each kind of node contributes the list of its
own keys, which is a closed fact and left to `simp`.
-/

namespace Stepwise

/-! ## Lists and absent parts -/

namespace Expr

theorem listToJson_eq_map (es : List Expr) : listToJson es = es.map toJson := by
  induction es with
  | nil => rfl
  | cons e rest ih => exact congrArg (e.toJson :: ·) ih

theorem optionToJson_eq_elim (e : Option Expr) : optionToJson e = e.elim .null toJson := by
  cases e <;> rfl

/-- No expression is written as null, so a null in the place of an expression says that there is
none. -/
theorem toJson_ne_null (e : Expr) : e.toJson ≠ .null := by
  cases e <;> simp [toJson]

end Expr

theorem Stmt.listToJson_eq_map (ss : List Stmt) : Stmt.listToJson ss = ss.map Stmt.toJson := by
  induction ss with
  | nil => rw [Stmt.listToJson, List.map_nil]
  | cons s rest ih => rw [Stmt.listToJson, ih, List.map_cons]

theorem Branch.listToJson_eq_map (bs : List Branch) :
    Branch.listToJson bs = bs.map Branch.toJson := by
  induction bs with
  | nil => rw [Branch.listToJson, List.map_nil]
  | cons b rest ih => rw [Branch.listToJson, ih, List.map_cons]

theorem Block.optionToJson_eq_elim (b : Option Block) :
    Block.optionToJson b = b.elim .null Block.toJson := by
  cases b with
  | none => rw [Block.optionToJson, Option.elim_none]
  | some b => rw [Block.optionToJson, Option.elim_some]

theorem Block.toJson_ne_null (b : Block) : b.toJson ≠ .null := by
  simp [Block.toJson]

theorem Json.ofText?_eq_elim (s : Option String) : Json.ofText? s = s.elim .null .str := by
  cases s <;> rfl

/-! ## Keys

The tags of leaves are simp lemmas, so that what is left of a node after unfolding is its list of
keys and the nodes in it. -/

namespace Json

@[simp]
theorem distinct_ofLine (line : Line) : (ofLine line).Distinct := trivial

@[simp]
theorem distinct_str (s : String) : (Json.str s).Distinct := trivial

@[simp]
theorem distinct_bool (b : Bool) : (Json.bool b).Distinct := trivial

@[simp]
theorem distinct_ofText? (s : Option String) : (ofText? s).Distinct := by
  cases s <;> trivial

@[simp]
theorem distinct_ofNumeral (x : Float) : (ofNumeral x).Distinct := by
  unfold ofNumeral
  split <;> trivial

theorem distinctItems_map {α : Type} {f : α → Json} {as : List α}
    (h : ∀ a ∈ as, (f a).Distinct) : DistinctItems (as.map f) := by
  induction as with
  | nil => trivial
  | cons a rest ih =>
    exact ⟨h a List.mem_cons_self, ih fun b hmem => h b (List.mem_cons_of_mem _ hmem)⟩

@[simp]
theorem distinct_ofTexts (texts : List String) : (ofTexts texts).Distinct :=
  distinctItems_map fun _ _ => trivial

end Json

namespace Expr

mutual

theorem distinct_toJson (e : Expr) : e.toJson.Distinct := by
  cases e with
  | num | bool | null | string | var | noop =>
    simp [toJson, Json.Distinct, Json.DistinctMembers, Assoc.keys]
  | binary left _ right _ =>
    simp [toJson, Json.Distinct, Json.DistinctMembers, Assoc.keys, left.distinct_toJson,
      right.distinct_toJson]
  | unary _ operand _ =>
    simp [toJson, Json.Distinct, Json.DistinctMembers, Assoc.keys, operand.distinct_toJson]
  | field object _ _ _ =>
    simp [toJson, Json.Distinct, Json.DistinctMembers, Assoc.keys, object.distinct_toJson]
  | index object place _ =>
    simp [toJson, Json.Distinct, Json.DistinctMembers, Assoc.keys, object.distinct_toJson,
      place.distinct_toJson]
  | list items _ =>
    simp [toJson, Json.Distinct, Json.DistinctMembers, Assoc.keys, distinct_listToJson items]
  | call _ args _ =>
    simp [toJson, Json.Distinct, Json.DistinctMembers, Assoc.keys, distinct_listToJson args]

theorem distinct_listToJson (es : List Expr) : Json.DistinctItems (listToJson es) := by
  cases es with
  | nil => trivial
  | cons e rest => exact ⟨e.distinct_toJson, distinct_listToJson rest⟩

end

end Expr

theorem Expr.distinct_optionToJson (e : Option Expr) : (Expr.optionToJson e).Distinct := by
  cases e with
  | none => trivial
  | some e => exact e.distinct_toJson

theorem ConstBinding.distinct_toJson (b : ConstBinding) : b.toJson.Distinct := by
  simp [ConstBinding.toJson, Json.Distinct, Json.DistinctMembers, Assoc.keys,
    b.value.distinct_toJson]

mutual

theorem Stmt.distinct_toJson (s : Stmt) : s.toJson.Distinct := by
  cases s with
  | compound block =>
    obtain ⟨body, line, endLine⟩ := block
    simp [Stmt.toJson, Block.members, Json.Distinct, Json.DistinctMembers, Assoc.keys,
      Stmt.distinct_listToJson body]
  | const bindings _ =>
    simp [Stmt.toJson, Json.Distinct, Json.DistinctMembers, Assoc.keys,
      Json.distinctItems_map fun b (_ : b ∈ bindings) => b.distinct_toJson]
  | condition branches otherwise _ =>
    simp [Stmt.toJson, Json.Distinct, Json.DistinctMembers, Assoc.keys,
      Branch.distinct_listToJson branches, Block.distinct_optionToJson otherwise]
  | tryCatch body _ handler _ =>
    simp [Stmt.toJson, Json.Distinct, Json.DistinctMembers, Assoc.keys, body.distinct_toJson,
      handler.distinct_toJson]
  | cycle _ body | doCycle body | retry _ body | function _ _ body | included _ body =>
    simp [Stmt.toJson, Json.Distinct, Json.DistinctMembers, Assoc.keys, body.distinct_toJson,
      Expr.distinct_toJson, Expr.distinct_optionToJson]
  | _ =>
    simp [Stmt.toJson, Json.Distinct, Json.DistinctMembers, Assoc.keys, Expr.distinct_toJson,
      Expr.distinct_listToJson, Expr.distinct_optionToJson]

theorem Stmt.distinct_listToJson (ss : List Stmt) : Json.DistinctItems (Stmt.listToJson ss) := by
  cases ss with
  | nil => simp [Stmt.listToJson, Json.DistinctItems]
  | cons s rest =>
    rw [Stmt.listToJson]
    exact ⟨s.distinct_toJson, Stmt.distinct_listToJson rest⟩

theorem Block.distinct_toJson (b : Block) : b.toJson.Distinct := by
  obtain ⟨body, line, endLine⟩ := b
  simp [Block.toJson, Block.members, Json.Distinct, Json.DistinctMembers, Assoc.keys,
    Stmt.distinct_listToJson body]

theorem Block.distinct_optionToJson (b : Option Block) : (Block.optionToJson b).Distinct := by
  cases b with
  | none => simp [Block.optionToJson, Json.Distinct]
  | some b =>
    rw [Block.optionToJson]
    exact b.distinct_toJson

theorem Branch.distinct_listToJson (bs : List Branch) :
    Json.DistinctItems (Branch.listToJson bs) := by
  cases bs with
  | nil => simp [Branch.listToJson, Json.DistinctItems]
  | cons b rest =>
    obtain ⟨test, block⟩ := b
    rw [Branch.listToJson]
    refine ⟨?_, Branch.distinct_listToJson rest⟩
    simp [Branch.toJson, Json.Distinct, Json.DistinctMembers, Assoc.keys, test.distinct_toJson,
      block.distinct_toJson]

end

end Stepwise
