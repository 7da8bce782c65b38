import Stepwise.Proofs.ScriptTrees
import Stepwise.Script.Decode

/-!
# Reading back the tree of a script

What is written is read back: the tree of a script decodes to the script, in the order in which its
members are written and in key order. `Reads` says this of one reader and one value, and each reader
made of others keeps it, so every kind of node owes only the names of its fields.

Number literals have to be finite. The tree has no number for any other double, and null in its
place is refused when it is read. That is the only thing asked of a script.

## How a node is read back

A node is an object with a tag. `tagged_of_carries` finds the tag and hands on the other members,
`required_ok` and `defaulted_ok` find a field among them and read it, and `variant_ok` adds where an
error would have been, of which there is none. So the proof for a kind of node lists its fields in
the order of the reader, each with the lemma for its own reader, and nothing more. A field that has
a default is written all the same, so the default never counts here.

Readers of expressions and statements call themselves and have fuel for it. Their lemmas are by
recursion on the script and not on the fuel: `Reads limit` asks that the tree is less deep than the
limit, and the fields of a node are less deep than the node (`expr_of_node`, `stmt_of_node`).
-/

namespace Stepwise

/-! ## Scripts with finite literals

The condition is a function to `Bool`, one arm for each kind of node, so that it can be decided on a
given script. -/

namespace Expr

mutual

/-- Every number literal in the expression is finite. -/
def finite : Expr → Bool
  | .num value _ => value.isFinite
  | .binary left _ right _ => left.finite && right.finite
  | .unary _ operand _ => operand.finite
  | .field object _ _ _ => object.finite
  | .index object place _ => object.finite && place.finite
  | .list items _ => listFinite items
  | .call _ args _ => listFinite args
  | .bool .. | .null _ | .string .. | .var .. | .noop _ => true

def listFinite : List Expr → Bool
  | [] => true
  | e :: rest => e.finite && listFinite rest

end

end Expr

mutual

/-- Every number literal in the statement is finite. -/
def Stmt.finite : Stmt → Bool
  | .compound block => block.finite
  | .assign targets _ values _ => Expr.listFinite targets && Expr.listFinite values
  | .const bindings _ => bindings.all (·.value.finite)
  | .condition branches otherwise _ => Branch.listFinite branches && Block.optionFinite otherwise
  | .cycle test body _ => test.finite && body.finite
  | .doCycle body test _ => body.finite && test.finite
  | .retry attempts body test _ => attempts.finite && body.finite && test.all Expr.finite
  | .ret value _ => value.all Expr.finite
  | .exit status _ => status.all Expr.finite
  | .tryCatch body _ handler _ => body.finite && handler.finite
  | .error message code _ => message.finite && code.all Expr.finite
  | .throw value _ => value.finite
  | .delay duration _ => duration.finite
  | .status text _ => text.finite
  | .declareWeb _ _ _ _ url _ => url.all Expr.finite
  | .function _ _ body _ => body.finite
  | .call _ args _ => Expr.listFinite args
  | .included _ body _ => body.finite
  | .label .. | .goto .. | .gosub .. | .suspend _ | .input .. | .comment .. | .doc ..
  | .noop _ => true

def Stmt.listFinite : List Stmt → Bool
  | [] => true
  | s :: rest => s.finite && Stmt.listFinite rest

def Block.finite : Block → Bool
  | .mk body _ _ => Stmt.listFinite body

def Block.optionFinite : Option Block → Bool
  | some b => b.finite
  | none => true

def Branch.finite : Branch → Bool
  | .mk test block => test.finite && block.finite

def Branch.listFinite : List Branch → Bool
  | [] => true
  | b :: rest => b.finite && Branch.listFinite rest

end

/-! ## Readers -/

namespace Decode

/-- The reader gives `a` for every tree that carries `k` and nests less deep than `limit`. It is
stated for all trees that carry the one that was written because a script may come with its members
in another order. -/
def Reads {α : Type} (limit : Nat) (read : Reader α) (k : Json) (a : α) : Prop :=
  ∀ j : Json, j.Carries k → j.depth < limit → read j = .ok a

section Leaves

variable {limit : Nat}

theorem text_reads (s : String) : Reads limit text (.str s) s := by
  rintro j rfl -
  rfl

theorem truth_reads (b : Bool) : Reads limit truth (.bool b) b := by
  rintro j rfl -
  rfl

theorem number_reads {x : Float} (finite : x.isFinite = true) :
    Reads limit number (.ofNumeral x) x := by
  intro j hj _
  rw [Json.ofNumeral, if_pos finite] at hj
  obtain rfl := hj
  rfl

/-- A line is written as a number, and is small enough to be read as one: a word of 32 bits, which a
double holds exactly. -/
theorem line_reads (l : Line) : Reads limit line (.ofLine l) l := by
  rintro j rfl -
  have small : (0 : Int) ≤ l.toNat ∧ (l.toNat : Int) < UInt32.size :=
    ⟨Int.natCast_nonneg _, Int.ofNat_lt.mpr l.toNat_lt⟩
  rw [Json.ofLine, line, if_pos small, Int.toNat_natCast, UInt32.ofNat_toNat]

theorem binaryOp_reads (op : BinaryOp) : Reads limit binaryOp (.str op.sign) op := by
  rintro j rfl -
  cases op <;> rfl

theorem unaryOp_reads (op : UnaryOp) : Reads limit unaryOp (.str op.sign) op := by
  rintro j rfl -
  cases op <;> rfl

theorem assignOp_reads (op : AssignOp) : Reads limit assignOp (.str op.sign) op := by
  rintro j rfl -
  cases op <;> rfl

end Leaves

section Parts

variable {α : Type} {limit : Nat} {read : Reader α} {f : α → Json}

/-- Null stands for nothing, so nothing else may be written as null. This is asked of the writer of
the parts, and every kind of part that is optional in a script is written as an object or a text. -/
theorem option_reads {a : Option α} (nonnull : ∀ b, f b ≠ .null)
    (h : ∀ b, a = some b → Reads limit read (f b) b) :
    Reads limit (option read) (a.elim .null f) a := by
  intro j hj deep
  cases a with
  | none =>
    obtain rfl := hj
    rfl
  | some b =>
    have hread : read j = .ok b := h b rfl j hj deep
    -- null carries nothing but null, so `option` hands the tree on
    have hne : j ≠ .null := by
      rintro rfl
      exact nonnull b (Json.carries_null hj)
    rw [option, hread]
    · rfl
    · exact hne

/-- The items of an array are read one by one, each with the depth of the whole array to spare. The
first that cannot be read would end it, so all of them have to be carried. -/
theorem items_read {as : List α} (h : ∀ a ∈ as, Reads limit read (f a) a) {own : List Json}
    (carries : Json.CarriesItems own (as.map f)) (deep : Json.depthItems own < limit) :
    own.mapM read = .ok as := by
  induction as generalizing own with
  | nil =>
    obtain rfl := carries
    rfl
  | cons a rest ih =>
    obtain ⟨j, others, rfl, hfirst, hothers⟩ := carries
    rw [Json.depthItems] at deep
    have hread : read j = .ok a := h a List.mem_cons_self j hfirst (by omega)
    have hrest : others.mapM read = .ok rest :=
      ih (fun b hmem => h b (List.mem_cons_of_mem _ hmem)) hothers (by omega)
    rw [List.mapM_cons, hread, hrest]
    rfl

theorem list_reads {as : List α} (h : ∀ a ∈ as, Reads limit read (f a) a) :
    Reads limit (list read) (.array (as.map f)) as := by
  rintro j ⟨own, rfl, carries⟩ deep
  rw [Json.depth] at deep
  exact items_read h carries (by omega)

end Parts

/-! ## Fields

Fields are looked up by name, and by place where a tree is written as an array. Here all fields have
names. An error says which field it was about, so the lookup returns a place as well, which the
proofs carry along and never use. -/

section Node

variable {α : Type} {limit : Nat} {own : List (String × Json)} {key : String} {k : Json}
  {read : Reader α} {a : α}

theorem find?_named {j : Json} (index : Nat) (h : Assoc.get? key own = some j) :
    ∃ place, (Fields.named own).find? index key = some (place, j) := by
  induction own with
  | nil => cases h
  | cons entry rest ih =>
    obtain ⟨first, k⟩ := entry
    rw [Assoc.get?] at h
    by_cases hfirst : first = key
    · rw [if_pos hfirst] at h
      cases h
      exact ⟨0, by simp [Fields.find?, List.findIdx?_cons, hfirst]⟩
    · rw [if_neg hfirst] at h
      obtain ⟨place, hplace⟩ := ih h
      refine ⟨place + 1, ?_⟩
      simp only [Fields.find?] at hplace
      simp only [Fields.find?, List.findIdx?_cons, beq_iff_eq, hfirst]
      split at hplace
      · rename_i found hfound
        obtain ⟨m, hget, hm⟩ := Option.map_eq_some_iff.mp hplace
        cases hm
        simp [hfound, hget]
      · cases hplace

/-- A field whose tree is carried is found under its name, and read. It is the common part of the
fields that a node must have and those that have a default. -/
theorem field_read (index : Nat) (deep : Json.depthMembers own < limit)
    (has : ∃ j, Assoc.get? key own = some j ∧ j.Carries k) (hread : Reads limit read k a) :
    ∃ place j, (Fields.named own).find? index key = some (place, j) ∧ read j = .ok a := by
  obtain ⟨j, hget, hcarries⟩ := has
  obtain ⟨place, hfind⟩ := find?_named index hget
  have shallow : j.depth < limit := Nat.lt_of_le_of_lt (Json.depth_le_of_get? hget) deep
  exact ⟨place, j, hfind, hread j hcarries shallow⟩

theorem required_ok (s : Shape) (index : Nat) (deep : Json.depthMembers own < limit)
    (has : ∃ j, Assoc.get? key own = some j ∧ j.Carries k) (hread : Reads limit read k a) :
    s.required (.named own) index key read = .ok a := by
  obtain ⟨place, j, hfind, hj⟩ := field_read index deep has hread
  simp only [Shape.required, hfind, hj]

/-- The tree of a script leaves no field out, so no default is taken. -/
theorem defaulted_ok (index : Nat) (absent : α) (deep : Json.depthMembers own < limit)
    (has : ∃ j, Assoc.get? key own = some j ∧ j.Carries k) (hread : Reads limit read k a) :
    Shape.defaulted (.named own) index key absent read = .ok a := by
  obtain ⟨place, j, hfind, hj⟩ := field_read index deep has hread
  simp only [Shape.defaulted, hfind, hj]

theorem variant_ok {owner kind : String} {count : Nat} {c : Shape → Check α}
    (h : ∀ s, c s = .ok a) : variant owner kind count (.named own) c = .ok a := by
  rw [variant, h]
  rfl

/-- A node without a tag is read back if its fields are. The depth of its members is one less than
its own. -/
theorem record_reads {wanted : String} {s : Shape} {site : Site} {c : Fields → Check α}
    {members : List (String × Json)}
    (h : ∀ own, Json.depthMembers own < limit → Json.CarriesMembers own members →
      c (.named own) = .ok a) :
    Reads limit (fun j => fields wanted j >>= fun f => s.finish site f (c f))
      (.object members) a := by
  rintro j ⟨own, rfl, carries⟩ deep
  rw [Json.depth] at deep
  show s.finish site (.named own) (c (.named own)) = .ok a
  rw [h own (by omega) carries]
  rfl

/-- The tag is found, and behind it the fields. They are the members without the tag, and since the
tag is no name of a field, all fields are among them. -/
theorem tagged_of_carries (site : Site) (wanted : String) {j : Json} {kind : String}
    {known : List String} {members : List (String × Json)} (hkind : kind ∈ known)
    (distinct : (Json.object (("t", .str kind) :: members)).Distinct)
    (h : j.Carries (.object (("t", .str kind) :: members))) :
    ∃ own, tagged site wanted known j = .ok (kind, .named own) ∧
      Json.depthMembers own < j.depth ∧ Json.CarriesMembers own members := by
  obtain ⟨whole, rfl, ⟨t, htag, ht⟩, hmembers⟩ := h
  obtain rfl := ht
  have fresh : "t" ∉ Assoc.keys members := (List.nodup_cons.mp distinct.1).1
  refine ⟨Assoc.erase "t" whole, ?_, ?_, hmembers.erase fresh⟩
  · have hknown : known.contains kind = true := List.contains_iff_mem.mpr hkind
    simp only [tagged, htag, tag, hknown]
    rfl
  · rw [Json.depth]
    exact Nat.lt_succ_of_le (Json.depthMembers_erase_le _ _)

end Node

/-! ## Expressions -/

theorem attr_reads {limit : Nat} (name : String) (l : Line) :
    Reads limit attr (.object [("name", .str name), ("line", .ofLine l)]) (name, l) := by
  refine record_reads fun own deep fields => ?_
  obtain ⟨hname, hline, -⟩ := fields
  rw [required_ok _ _ deep hname (text_reads name), defaulted_ok _ _ deep hline (line_reads l)]
  rfl

/-- An expression is read back if its node is, given readers that go one level less deep. The
readers of its parts have one fuel less, and the parts are one level less deep, so the bound holds
again. -/
theorem expr_of_node {e : Expr} {kind : String} {members : List (String × Json)}
    (tree : e.toJson = .object (("t", .str kind) :: members)) (hkind : kind ∈ exprTags)
    (node : ∀ fuel own, Json.depthMembers own < fuel → Json.CarriesMembers own members →
      exprNode (expr fuel .inner) kind (.named own) = .ok e) (fuel : Nat) (site : Site) :
    Reads fuel (expr fuel site) e.toJson e := by
  intro j hj deep
  cases fuel with
  | zero => exact absurd deep (Nat.not_lt_zero _)
  | succ fuel =>
    rw [tree] at hj
    obtain ⟨own, htagged, hdepth, hmembers⟩ :=
      tagged_of_carries site "internally tagged enum Expr" hkind (tree ▸ e.distinct_toJson) hj
    rw [expr, htagged]
    exact node fuel own (by omega) hmembers

theorem list_of_exprs {limit : Nat} {read : Reader Expr} {es : List Expr}
    (h : ∀ e ∈ es, Reads limit read e.toJson e) :
    Reads limit (list read) (.array (Expr.listToJson es)) es := by
  rw [Expr.listToJson_eq_map]
  exact list_reads h

mutual

/-- **Every expression with finite literals is read back.** One case for each kind of node. The
cases name the fields in the order in which the reader asks for them, which need not be the written
one. -/
theorem expr_reads (e : Expr) (finite : e.finite = true) (fuel : Nat) (site : Site) :
    Reads fuel (expr fuel site) e.toJson e := by
  cases e with
  | num value l =>
    refine expr_of_node rfl (by decide) (fun fuel own deep fields => ?_) fuel site
    obtain ⟨hvalue, hline, -⟩ := fields
    rw [exprNode]
    refine variant_ok fun s => ?_
    rw [required_ok _ _ deep hvalue (number_reads finite),
      defaulted_ok _ _ deep hline (line_reads l)]
    rfl
  | bool value l =>
    refine expr_of_node rfl (by decide) (fun fuel own deep fields => ?_) fuel site
    obtain ⟨hvalue, hline, -⟩ := fields
    rw [exprNode]
    refine variant_ok fun s => ?_
    rw [required_ok _ _ deep hvalue (truth_reads value),
      defaulted_ok _ _ deep hline (line_reads l)]
    rfl
  | string text l | var text l =>
    refine expr_of_node rfl (by decide) (fun fuel own deep fields => ?_) fuel site
    obtain ⟨htext, hline, -⟩ := fields
    rw [exprNode]
    refine variant_ok fun s => ?_
    rw [required_ok _ _ deep htext (text_reads text),
      defaulted_ok _ _ deep hline (line_reads l)]
    rfl
  | binary left op right l =>
    obtain ⟨hl, hr⟩ := Bool.and_eq_true_iff.mp finite
    refine expr_of_node rfl (by decide) (fun fuel own deep fields => ?_) fuel site
    obtain ⟨hleft, hop, hright, hline, -⟩ := fields
    rw [exprNode]
    refine variant_ok fun s => ?_
    rw [required_ok _ _ deep hleft (expr_reads left hl fuel .inner),
      required_ok _ _ deep hop (binaryOp_reads op),
      required_ok _ _ deep hright (expr_reads right hr fuel .inner),
      defaulted_ok _ _ deep hline (line_reads l)]
    rfl
  | unary op operand l =>
    refine expr_of_node rfl (by decide) (fun fuel own deep fields => ?_) fuel site
    obtain ⟨hop, hoperand, hline, -⟩ := fields
    rw [exprNode]
    refine variant_ok fun s => ?_
    rw [required_ok _ _ deep hop (unaryOp_reads op),
      required_ok _ _ deep hoperand (expr_reads operand finite fuel .inner),
      defaulted_ok _ _ deep hline (line_reads l)]
    rfl
  | field object name nameLine l =>
    refine expr_of_node rfl (by decide) (fun fuel own deep fields => ?_) fuel site
    obtain ⟨hobject, hattr, hline, -⟩ := fields
    rw [exprNode]
    refine variant_ok fun s => ?_
    rw [required_ok _ _ deep hobject (expr_reads object finite fuel .inner),
      required_ok _ _ deep hattr (attr_reads name nameLine),
      defaulted_ok _ _ deep hline (line_reads l)]
    rfl
  | index object place l =>
    obtain ⟨ho, hp⟩ := Bool.and_eq_true_iff.mp finite
    refine expr_of_node rfl (by decide) (fun fuel own deep fields => ?_) fuel site
    obtain ⟨hobject, hplace, hline, -⟩ := fields
    rw [exprNode]
    refine variant_ok fun s => ?_
    rw [required_ok _ _ deep hobject (expr_reads object ho fuel .inner),
      required_ok _ _ deep hplace (expr_reads place hp fuel .inner),
      defaulted_ok _ _ deep hline (line_reads l)]
    rfl
  | list items l =>
    refine expr_of_node rfl (by decide) (fun fuel own deep fields => ?_) fuel site
    obtain ⟨hitems, hline, -⟩ := fields
    rw [exprNode]
    refine variant_ok fun s => ?_
    rw [required_ok _ _ deep hitems (list_of_exprs (exprs_read items finite fuel .inner)),
      defaulted_ok _ _ deep hline (line_reads l)]
    rfl
  | call name args l =>
    refine expr_of_node rfl (by decide) (fun fuel own deep fields => ?_) fuel site
    obtain ⟨hname, hargs, hline, -⟩ := fields
    -- A call checks its name itself, outside of the variant, so there is no `variant_ok` here.
    rw [exprNode, required_ok _ _ deep hname (text_reads name),
      defaulted_ok _ _ deep hargs (list_of_exprs (exprs_read args finite fuel .inner)),
      defaulted_ok _ _ deep hline (line_reads l)]
    rfl
  | null l | noop l =>
    refine expr_of_node rfl (by decide) (fun fuel own deep fields => ?_) fuel site
    obtain ⟨hline, -⟩ := fields
    simp only [exprNode]
    refine variant_ok fun s => ?_
    rw [defaulted_ok _ _ deep hline (line_reads l)]
    rfl

theorem exprs_read (es : List Expr) (finite : Expr.listFinite es = true) (fuel : Nat)
    (site : Site) : ∀ e ∈ es, Reads fuel (expr fuel site) e.toJson e := by
  cases es with
  | nil => exact fun _ hmem => absurd hmem List.not_mem_nil
  | cons e rest =>
    obtain ⟨he, hrest⟩ := Bool.and_eq_true_iff.mp finite
    exact List.forall_mem_cons.mpr
      ⟨expr_reads e he fuel site, exprs_read rest hrest fuel site⟩

end

/-! ## Statements and blocks -/

theorem option_of_text {limit : Nat} (s : Option String) :
    Reads limit (option text) (.ofText? s) s := by
  rw [Json.ofText?_eq_elim]
  exact option_reads (fun _ => Json.noConfusion) fun t _ => text_reads t

theorem option_of_expr {e : Option Expr} (finite : e.all Expr.finite = true) (fuel : Nat) :
    Reads fuel (option (expr fuel .inner)) (Expr.optionToJson e) e := by
  rw [Expr.optionToJson_eq_elim]
  refine option_reads Expr.toJson_ne_null ?_
  rintro e rfl
  exact expr_reads e finite fuel .inner

theorem constBinding_reads (b : ConstBinding) (finite : b.value.finite = true) (fuel : Nat) :
    Reads fuel (constBinding (expr fuel .inner)) b.toJson b := by
  refine record_reads fun own deep fields => ?_
  obtain ⟨hname, hvalue, -⟩ := fields
  rw [required_ok _ _ deep hname (text_reads b.name),
    required_ok _ _ deep hvalue (expr_reads b.value finite fuel .inner)]
  rfl

theorem list_of_branches {limit : Nat} {read : Reader Branch} {bs : List Branch}
    (h : ∀ b ∈ bs, Reads limit read b.toJson b) :
    Reads limit (list read) (.array (Branch.listToJson bs)) bs := by
  rw [Branch.listToJson_eq_map]
  exact list_reads h

/-- A block is read from its fields, given a reader of its statements. Blocks stand in two kinds of
places, on their own and merged with the tag of a compound statement, and both read them by this. -/
theorem blockFields_ok {body : List Stmt} {l endLine : Line} {limit : Nat} {read : Reader Stmt}
    {own : List (String × Json)} (h : ∀ s ∈ body, Reads limit read s.toJson s) (site : Site)
    (deep : Json.depthMembers own < limit)
    (carries : Json.CarriesMembers own (Block.mk body l endLine).members) :
    blockFields site read (.named own) = .ok (.mk body l endLine) := by
  rw [Block.members, Stmt.listToJson_eq_map] at carries
  obtain ⟨hbody, hline, hend, -⟩ := carries
  rw [blockFields, required_ok _ _ deep hbody (list_reads h),
    defaulted_ok _ _ deep hline (line_reads l), defaulted_ok _ _ deep hend (line_reads endLine)]
  rfl

/-- A statement is read back if its node is, given readers that go one level less deep. It is the
same argument as for expressions, with a second reader for the expressions in the node. -/
theorem stmt_of_node {s : Stmt} {kind : String} {members : List (String × Json)}
    (tree : s.toJson = .object (("t", .str kind) :: members)) (hkind : kind ∈ stmtTags)
    (node : ∀ fuel own, Json.depthMembers own < fuel → Json.CarriesMembers own members →
      stmtNode (expr fuel .inner) (stmt fuel .inner) kind (.named own) = .ok s)
    (fuel : Nat) (site : Site) : Reads fuel (stmt fuel site) s.toJson s := by
  intro j hj deep
  cases fuel with
  | zero => exact absurd deep (Nat.not_lt_zero _)
  | succ fuel =>
    rw [tree] at hj
    obtain ⟨own, htagged, hdepth, hmembers⟩ :=
      tagged_of_carries site "internally tagged enum Stmt" hkind (tree ▸ s.distinct_toJson) hj
    rw [stmt, htagged]
    exact node fuel own (by omega) hmembers

mutual

/-- **Every statement with finite literals is read back**, with everything that is nested in it. The
recursion is over the script, through blocks and branches. -/
theorem stmt_reads (s : Stmt) (finite : s.finite = true) (fuel : Nat) (site : Site) :
    Reads fuel (stmt fuel site) s.toJson s := by
  cases s with
  | compound block =>
    -- the tag stands among the members of the block itself, so there is no object in between
    obtain ⟨body, line, endLine⟩ := block
    refine stmt_of_node (by rw [Stmt.toJson]) (by decide) (fun fuel own deep fields => ?_) fuel site
    rw [stmtNode, blockFields_ok (stmts_read body finite fuel .inner) .inner deep fields]
    rfl
  | assign targets op values l =>
    obtain ⟨ht, hv⟩ := Bool.and_eq_true_iff.mp finite
    refine stmt_of_node (by rw [Stmt.toJson]) (by decide) (fun fuel own deep fields => ?_) fuel site
    obtain ⟨htargets, hop, hvalues, hline, -⟩ := fields
    rw [stmtNode]
    refine variant_ok fun s => ?_
    rw [required_ok _ _ deep htargets (list_of_exprs (exprs_read targets ht fuel .inner)),
      defaulted_ok _ _ deep hop (assignOp_reads op),
      required_ok _ _ deep hvalues (list_of_exprs (exprs_read values hv fuel .inner)),
      required_ok _ _ deep hline (line_reads l)]
    rfl
  | const bindings l =>
    refine stmt_of_node (by rw [Stmt.toJson]) (by decide) (fun fuel own deep fields => ?_) fuel site
    obtain ⟨hbindings, hline, -⟩ := fields
    rw [stmtNode]
    refine variant_ok fun s => ?_
    rw [required_ok _ _ deep hbindings (list_reads fun b hmem =>
        constBinding_reads b (List.all_eq_true.mp finite b hmem) fuel),
      required_ok _ _ deep hline (line_reads l)]
    rfl
  | condition branches otherwise l =>
    obtain ⟨hb, ho⟩ := Bool.and_eq_true_iff.mp finite
    refine stmt_of_node (by rw [Stmt.toJson]) (by decide) (fun fuel own deep fields => ?_) fuel site
    obtain ⟨hbranches, hotherwise, hline, -⟩ := fields
    rw [stmtNode]
    refine variant_ok fun s => ?_
    rw [required_ok _ _ deep hbranches (list_of_branches (branches_read branches hb fuel)),
      defaulted_ok _ _ deep hotherwise (optionBlock_reads otherwise ho fuel),
      required_ok _ _ deep hline (line_reads l)]
    rfl
  | cycle test body l =>
    obtain ⟨ht, hb⟩ := Bool.and_eq_true_iff.mp finite
    refine stmt_of_node (by rw [Stmt.toJson]) (by decide) (fun fuel own deep fields => ?_) fuel site
    obtain ⟨htest, hbody, hline, -⟩ := fields
    rw [stmtNode]
    refine variant_ok fun s => ?_
    rw [required_ok _ _ deep htest (expr_reads test ht fuel .inner),
      required_ok _ _ deep hbody (block_reads body hb fuel .inner .inner),
      required_ok _ _ deep hline (line_reads l)]
    rfl
  | doCycle body test l =>
    obtain ⟨hb, ht⟩ := Bool.and_eq_true_iff.mp finite
    refine stmt_of_node (by rw [Stmt.toJson]) (by decide) (fun fuel own deep fields => ?_) fuel site
    obtain ⟨hbody, htest, hline, -⟩ := fields
    rw [stmtNode]
    refine variant_ok fun s => ?_
    rw [required_ok _ _ deep hbody (block_reads body hb fuel .inner .inner),
      required_ok _ _ deep htest (expr_reads test ht fuel .inner),
      required_ok _ _ deep hline (line_reads l)]
    rfl
  | retry attempts body test l =>
    obtain ⟨hab, ht⟩ := Bool.and_eq_true_iff.mp finite
    obtain ⟨ha, hb⟩ := Bool.and_eq_true_iff.mp hab
    refine stmt_of_node (by rw [Stmt.toJson]) (by decide) (fun fuel own deep fields => ?_) fuel site
    obtain ⟨hattempts, hbody, htest, hline, -⟩ := fields
    rw [stmtNode]
    refine variant_ok fun s => ?_
    rw [required_ok _ _ deep hattempts (expr_reads attempts ha fuel .inner),
      required_ok _ _ deep hbody (block_reads body hb fuel .inner .inner),
      defaulted_ok _ _ deep htest (option_of_expr ht fuel),
      required_ok _ _ deep hline (line_reads l)]
    rfl
  | label name l | goto name l | gosub name l | input name l =>
    refine stmt_of_node (by rw [Stmt.toJson]) (by decide) (fun fuel own deep fields => ?_) fuel site
    obtain ⟨hname, hline, -⟩ := fields
    rw [stmtNode]
    refine variant_ok fun s => ?_
    rw [required_ok _ _ deep hname (text_reads name),
      required_ok _ _ deep hline (line_reads l)]
    rfl
  | ret value l | exit value l =>
    refine stmt_of_node (by rw [Stmt.toJson]) (by decide) (fun fuel own deep fields => ?_) fuel site
    obtain ⟨hvalue, hline, -⟩ := fields
    rw [stmtNode]
    refine variant_ok fun s => ?_
    rw [defaulted_ok _ _ deep hvalue (option_of_expr finite fuel),
      required_ok _ _ deep hline (line_reads l)]
    rfl
  | tryCatch body catchVar handler l =>
    obtain ⟨hb, hh⟩ := Bool.and_eq_true_iff.mp finite
    refine stmt_of_node (by rw [Stmt.toJson]) (by decide) (fun fuel own deep fields => ?_) fuel site
    obtain ⟨hbody, hcatch, hhandler, hline, -⟩ := fields
    rw [stmtNode]
    refine variant_ok fun s => ?_
    rw [required_ok _ _ deep hbody (block_reads body hb fuel .inner .inner),
      defaulted_ok _ _ deep hcatch (option_of_text catchVar),
      required_ok _ _ deep hhandler (block_reads handler hh fuel .inner .inner),
      required_ok _ _ deep hline (line_reads l)]
    rfl
  | error message code l =>
    obtain ⟨hm, hc⟩ := Bool.and_eq_true_iff.mp finite
    refine stmt_of_node (by rw [Stmt.toJson]) (by decide) (fun fuel own deep fields => ?_) fuel site
    obtain ⟨hmessage, hcode, hline, -⟩ := fields
    rw [stmtNode]
    refine variant_ok fun s => ?_
    rw [required_ok _ _ deep hmessage (expr_reads message hm fuel .inner),
      defaulted_ok _ _ deep hcode (option_of_expr hc fuel),
      required_ok _ _ deep hline (line_reads l)]
    rfl
  | throw value l | delay value l | status value l =>
    refine stmt_of_node (by rw [Stmt.toJson]) (by decide) (fun fuel own deep fields => ?_) fuel site
    obtain ⟨hvalue, hline, -⟩ := fields
    rw [stmtNode]
    refine variant_ok fun s => ?_
    rw [required_ok _ _ deep hvalue (expr_reads value finite fuel .inner),
      required_ok _ _ deep hline (line_reads l)]
    rfl
  | declareWeb name params outputs calledAs url l =>
    refine stmt_of_node (by rw [Stmt.toJson]) (by decide) (fun fuel own deep fields => ?_) fuel site
    obtain ⟨hname, hparams, houtputs, halias, hurl, hline, -⟩ := fields
    rw [stmtNode]
    refine variant_ok fun s => ?_
    rw [required_ok _ _ deep hname (text_reads name),
      defaulted_ok _ _ deep hparams (list_reads fun s _ => text_reads s),
      defaulted_ok _ _ deep houtputs (list_reads fun s _ => text_reads s),
      defaulted_ok _ _ deep halias (option_of_text calledAs),
      defaulted_ok _ _ deep hurl (option_of_expr finite fuel),
      required_ok _ _ deep hline (line_reads l)]
    rfl
  | function name params body l =>
    refine stmt_of_node (by rw [Stmt.toJson]) (by decide) (fun fuel own deep fields => ?_) fuel site
    obtain ⟨hname, hparams, hbody, hline, -⟩ := fields
    rw [stmtNode]
    refine variant_ok fun s => ?_
    rw [required_ok _ _ deep hname (text_reads name),
      defaulted_ok _ _ deep hparams (list_reads fun s _ => text_reads s),
      required_ok _ _ deep hbody (block_reads body finite fuel .inner .inner),
      required_ok _ _ deep hline (line_reads l)]
    rfl
  | call name args l =>
    refine stmt_of_node (by rw [Stmt.toJson]) (by decide) (fun fuel own deep fields => ?_) fuel site
    obtain ⟨hname, hargs, hline, -⟩ := fields
    rw [stmtNode, required_ok _ _ deep hname (text_reads name),
      defaulted_ok _ _ deep hargs (list_of_exprs (exprs_read args finite fuel .inner)),
      defaulted_ok _ _ deep hline (line_reads l)]
    rfl
  | included source body l =>
    refine stmt_of_node (by rw [Stmt.toJson]) (by decide) (fun fuel own deep fields => ?_) fuel site
    obtain ⟨hsource, hbody, hline, -⟩ := fields
    rw [stmtNode]
    refine variant_ok fun s => ?_
    rw [required_ok _ _ deep hsource (text_reads source),
      required_ok _ _ deep hbody (block_reads body finite fuel .inner .inner),
      required_ok _ _ deep hline (line_reads l)]
    rfl
  | comment text l | doc text l =>
    refine stmt_of_node (by rw [Stmt.toJson]) (by decide) (fun fuel own deep fields => ?_) fuel site
    obtain ⟨htext, hline, -⟩ := fields
    rw [stmtNode]
    refine variant_ok fun s => ?_
    rw [defaulted_ok _ _ deep htext (text_reads text),
      required_ok _ _ deep hline (line_reads l)]
    rfl
  | suspend l | noop l =>
    refine stmt_of_node (by rw [Stmt.toJson]) (by decide) (fun fuel own deep fields => ?_) fuel site
    obtain ⟨hline, -⟩ := fields
    simp only [stmtNode]
    refine variant_ok fun s => ?_
    rw [required_ok _ _ deep hline (line_reads l)]
    rfl

theorem stmts_read (ss : List Stmt) (finite : Stmt.listFinite ss = true) (fuel : Nat)
    (site : Site) : ∀ s ∈ ss, Reads fuel (stmt fuel site) s.toJson s := by
  cases ss with
  | nil => exact fun _ hmem => absurd hmem List.not_mem_nil
  | cons s rest =>
    obtain ⟨hs, hrest⟩ := Bool.and_eq_true_iff.mp finite
    exact List.forall_mem_cons.mpr
      ⟨stmt_reads s hs fuel site, stmts_read rest hrest fuel site⟩

theorem block_reads (b : Block) (finite : b.finite = true) (fuel : Nat) (site inside : Site) :
    Reads fuel (blockOf site (stmt fuel inside)) b.toJson b := by
  obtain ⟨body, line, endLine⟩ := b
  rw [Block.toJson]
  rintro j ⟨own, rfl, carries⟩ deep
  rw [Json.depth] at deep
  exact blockFields_ok (stmts_read body finite fuel inside) site (by omega) carries

theorem optionBlock_reads (b : Option Block) (finite : Block.optionFinite b = true) (fuel : Nat) :
    Reads fuel (option (blockOf .inner (stmt fuel .inner))) (Block.optionToJson b) b := by
  rw [Block.optionToJson_eq_elim]
  cases b with
  | none =>
    refine option_reads Block.toJson_ne_null fun _ heq => ?_
    cases heq
  | some b =>
    have hb := block_reads b finite fuel .inner .inner
    exact option_reads Block.toJson_ne_null fun _ heq => Option.some.inj heq ▸ hb

theorem branches_read (bs : List Branch) (finite : Branch.listFinite bs = true) (fuel : Nat) :
    ∀ b ∈ bs, Reads fuel (branchOf (expr fuel .inner) (blockOf .inner (stmt fuel .inner)))
      b.toJson b := by
  cases bs with
  | nil => exact fun _ hmem => absurd hmem List.not_mem_nil
  | cons b rest =>
    obtain ⟨hb, hrest⟩ := Bool.and_eq_true_iff.mp finite
    refine List.forall_mem_cons.mpr ⟨?_, branches_read rest hrest fuel⟩
    obtain ⟨test, block⟩ := b
    obtain ⟨ht, hblock⟩ := Bool.and_eq_true_iff.mp hb
    rw [Branch.toJson]
    refine record_reads fun own deep fields => ?_
    obtain ⟨htest, hbody, -⟩ := fields
    rw [required_ok _ _ deep htest (expr_reads test ht fuel .inner),
      required_ok _ _ deep hbody (block_reads block hblock fuel .inner .inner)]
    rfl

end

end Decode

/-! ## The routes into a script

A script comes as a block, or as a compound statement with a tag. The reader of a whole script tries
the second first, and only a tree without a tag is read as a block. -/

namespace Block

variable {b : Block} {j : Json}

theorem ofJson_of_carries (finite : b.finite = true) (h : j.Carries b.toJson) :
    Block.ofJson j = .ok b :=
  Decode.block_reads b finite (j.depth + 1) .outer .outer j h (Nat.lt_succ_self _)

/-- Without a tag the tree is no statement, so it is read as a block. The attempt to read a
statement is made first and has to fail for this. -/
theorem rootOfJson_of_carries (finite : b.finite = true) (h : j.Carries b.toJson)
    (untagged : j.member? "t" = none) : Block.rootOfJson j = .ok b := by
  have hstmt : Stmt.ofJson j = .error (.missing "t") := by
    rw [Block.toJson] at h
    obtain ⟨own, rfl, -⟩ := h
    have hget : Assoc.get? "t" own = none := untagged
    rw [Stmt.ofJson, Decode.stmt, Decode.tagged, hget]
    rfl
  rw [Block.rootOfJson, hstmt]
  exact ofJson_of_carries finite h

theorem stmt_of_carries (finite : b.finite = true) (h : j.Carries (Stmt.compound b).toJson) :
    Stmt.ofJson j = .ok (.compound b) :=
  Decode.stmt_reads (.compound b) finite (j.depth + 1) .outer j h (Nat.lt_succ_self _)

theorem rootOfJson_of_carries_tagged (finite : b.finite = true)
    (h : j.Carries (Stmt.compound b).toJson) : Block.rootOfJson j = .ok b := by
  rw [Block.rootOfJson, stmt_of_carries finite h]

/-- No field of a block is called as the tag is, so a block is not taken for a statement. -/
theorem tag_notMem_members (b : Block) : "t" ∉ Assoc.keys b.members := by
  obtain ⟨body, line, endLine⟩ := b
  simp [members, Assoc.keys]

theorem member?_tag_toJson (b : Block) : b.toJson.member? "t" = none := by
  obtain ⟨body, line, endLine⟩ := b
  simp [toJson, members, Json.member?, Assoc.get?]

theorem member?_tag_sorted (b : Block) : b.toJson.sorted.member? "t" = none := by
  rw [toJson]
  exact Json.member?_sorted_eq_none b.tag_notMem_members

/-- **Nothing is lost in the tree of a script.** The tree is read back as the block it was made of,
and with the tag of a compound statement in front as that statement. Both hold in the order in which
the members are written and in key order. Scripts with one tree are therefore the same script. -/
theorem codec_lossless (b : Block) (finite : b.finite = true) :
    (∀ j, j = b.toJson ∨ j = b.toJson.sorted →
      Block.ofJson j = .ok b ∧ Block.rootOfJson j = .ok b) ∧
    (∀ j, j = Json.object (("t", .str "Compound") :: b.members) ∨
        j = (Json.object (("t", .str "Compound") :: b.members)).sorted →
      Stmt.ofJson j = .ok (.compound b) ∧ Block.rootOfJson j = .ok b) ∧
    ∀ other : Block, other.finite = true →
      other.toJson = b.toJson ∨ other.toJson.sorted = b.toJson.sorted → other = b := by
  refine ⟨?_, ?_, ?_⟩
  · rintro j (rfl | rfl)
    · have h := b.distinct_toJson.carries
      exact ⟨ofJson_of_carries finite h, rootOfJson_of_carries finite h b.member?_tag_toJson⟩
    · have h := b.distinct_toJson.sorted_carries
      exact ⟨ofJson_of_carries finite h, rootOfJson_of_carries finite h b.member?_tag_sorted⟩
  · rw [← Stmt.toJson]
    rintro j (rfl | rfl)
    · have h := (Stmt.compound b).distinct_toJson.carries
      exact ⟨stmt_of_carries finite h, rootOfJson_of_carries_tagged finite h⟩
    · have h := (Stmt.compound b).distinct_toJson.sorted_carries
      exact ⟨stmt_of_carries finite h, rootOfJson_of_carries_tagged finite h⟩
  · rintro other hother (heq | heq)
    · have h := ofJson_of_carries hother other.distinct_toJson.carries
      rw [heq, ofJson_of_carries finite b.distinct_toJson.carries] at h
      exact (Except.ok.inj h).symm
    · have h := ofJson_of_carries hother other.distinct_toJson.sorted_carries
      rw [heq, ofJson_of_carries finite b.distinct_toJson.sorted_carries] at h
      exact (Except.ok.inj h).symm

/-- Tags that two kinds of node share, parts that are there and parts that are not, and literals. -/
def sampler (elseLine : Line) : Block :=
  .mk [
    .declareWeb "fetch" ["id"] [] (some "get") none 1,
    .function "f" [] (.mk [.ret none 3, .ret (some (.num (-0.0) 4)) 4] 2 5) 2,
    .condition
      [.mk (.binary (.call "f" [] 6) .le (.unary .neg (.num 2.5 6) 6) 6) (.mk [] 6 7)]
      (some (.mk [.noop 8] elseLine 9)) 6,
    .condition [] none 10,
    .retry (.num 3 11)
      (.mk [.assign [.field (.var "a" 12) "b" 0 12] .add [.list [.null 0, .string "" 12] 12] 12]
        11 13)
      none 11,
    .tryCatch (.mk [.call "f" [.index (.var "xs" 15) (.bool true 0) 15] 15] 14 16) none
      (.mk [.error (.string "lost" 17) (some (.num 1e21 17)) 17] 16 18) 14,
    .compound (.mk [.const [⟨"c", .noop 0⟩] 19, .comment "" 20] 19 21)] 0 22

/-- The sampler is read back from its tree in key order, and another line inside it shows in the
tree. -/
theorem codec_lossless_sampler :
    (sampler 8).finite = true ∧
    Block.rootOfJson (sampler 8).toJson = .ok (sampler 8) ∧
    Block.rootOfJson (sampler 8).toJson.sorted = .ok (sampler 8) ∧
    Stmt.ofJson (.object (("t", .str "Compound") :: (sampler 8).members)) =
      .ok (.compound (sampler 8)) ∧
    (sampler 7).toJson ≠ (sampler 8).toJson := by
  have finite : (sampler 8).finite = true := by decide +kernel
  obtain ⟨bare, tagged, unique⟩ := codec_lossless (sampler 8) finite
  refine ⟨finite, (bare _ (.inl rfl)).2, (bare _ (.inr rfl)).2, (tagged _ (.inl rfl)).1, ?_⟩
  intro heq
  have hsame : sampler 7 = sampler 8 := unique (sampler 7) (by decide +kernel) (.inl heq)
  simp [sampler] at hsame

end Block

end Stepwise
