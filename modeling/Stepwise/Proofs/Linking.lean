import Stepwise.Program.Link
import Stepwise.Proofs.Assoc
import Stepwise.Proofs.Path

/-!
# What linking guarantees

Every unit of a linked program is a linked block, the bodies of functions included, and so is every
block nested in it: there are no comments at any position. And every entry of a label table leads to
the label, in the unit of the table. `Program.Linked` is these two together; it is all that running
a program needs of linking.

That positions lead somewhere is not among the two. It is a matter of how the machine comes by its
positions, and an invariant of its own (`Proofs/Placement`). What linking adds is that a statement
at a position is never a comment, which a machine could not execute, and that a jump comes to a
position of the same kind. With this `Proofs/Safety` shows that a run never goes astray.

Which label an entry leads to, if there are several, is left open here. `Proofs/LabelTables` says
it.
-/

namespace Stepwise

/-! ## Linked blocks -/

namespace Branch

theorem listLinked_eq_map (branches : List Branch) : listLinked branches = branches.map linked := by
  induction branches with
  | nil => rfl
  | cons branch rest ih => rw [listLinked, ih, List.map_cons]

theorem block_linked (branch : Branch) : branch.linked.block = branch.block.linked := by
  cases branch
  rfl

end Branch

namespace Stmt

theorem isComment_linked (s : Stmt) : s.linked.isComment = s.isComment := by
  cases s <;> rfl

theorem mem_listLinked {body : List Stmt} {s : Stmt} (h : s ∈ listLinked body) :
    ∃ s' : Stmt, s = s'.linked ∧ s'.isComment = false := by
  induction body with
  | nil => cases h
  | cons first rest ih =>
    rw [listLinked] at h
    cases hfirst : first.isComment with
    | true =>
      rw [hfirst, if_pos rfl] at h
      exact ih h
    | false =>
      rw [hfirst, if_neg Bool.false_ne_true] at h
      obtain rfl | hrest := List.mem_cons.mp h
      · exact ⟨first, rfl, hfirst⟩
      · exact ih hrest

/-- The blocks of a linked statement are linked. Linking keeps the number of branches and blocks,
and only removes statements from blocks. -/
theorem block?_linked (s : Stmt) (sel : BlockSel) :
    s.linked.block? sel = (s.block? sel).map Block.linked := by
  cases s with
  | condition branches otherwise line =>
    cases sel with
    | branch i =>
      simp only [linked, block?, Branch.listLinked_eq_map, List.getElem?_map, Option.map_map]
      congr 1
      funext branch
      exact branch.block_linked
    | otherwise => cases otherwise <;> rfl
    | body => rfl
    | handler => rfl
  | _ => cases sel <;> rfl

end Stmt

namespace Block

theorem body_linked (b : Block) : b.linked.body = Stmt.listLinked b.body := by
  cases b
  rfl

theorem not_comment_of_linked {b : Block} {s : Stmt} (h : s ∈ b.linked.body) :
    s.isComment = false := by
  rw [body_linked] at h
  obtain ⟨s', rfl, hs'⟩ := Stmt.mem_listLinked h
  rw [Stmt.isComment_linked, hs']

theorem follow?_linked {b c : Block} {path : BlockPath} (h : b.linked.follow? path = some c) :
    ∃ d : Block, c = d.linked := by
  induction path generalizing b with
  | nil => exact ⟨b, (Option.some.inj h).symm⟩
  | cons turn rest ih =>
    obtain ⟨index, sel⟩ := turn
    obtain ⟨stmt, child, hstmt, hchild, h⟩ := follow?_cons_eq_some.mp h
    have hmem := List.mem_of_getElem? hstmt
    rw [body_linked] at hmem
    obtain ⟨s, rfl, -⟩ := Stmt.mem_listLinked hmem
    rw [Stmt.block?_linked] at hchild
    obtain ⟨child', -, rfl⟩ := Option.map_eq_some_iff.mp hchild
    exact ih h

end Block

/-! ## Linked functions -/

/-- The bodies of these functions are linked. Functions are listed from the linked script, so those
in the body of another are reached through a body that is linked already. -/
def FunctionDecl.AllLinked (decls : List FunctionDecl) : Prop :=
  ∀ d ∈ decls, ∃ b, d.body = Block.linked b

theorem FunctionDecl.AllLinked.append {decls decls' : List FunctionDecl} (h : AllLinked decls)
    (h' : AllLinked decls') : AllLinked (decls ++ decls') := by
  intro d hmem
  obtain hmem | hmem := List.mem_append.mp hmem
  · exact h d hmem
  · exact h' d hmem

-- the induction follows the listing, through the lists and options in the tree
mutual

theorem Block.functions_linked : ∀ b : Block, FunctionDecl.AllLinked b.linked.functions
  | .mk body _ _ => Stmt.listFunctions_linked body

theorem Stmt.listFunctions_linked :
    ∀ body : List Stmt, FunctionDecl.AllLinked (Stmt.listFunctions (Stmt.listLinked body))
  | [] => nofun
  | s :: rest => by
    rw [Stmt.listLinked]
    split
    · exact Stmt.listFunctions_linked rest
    · exact (Stmt.functions_linked s).append (Stmt.listFunctions_linked rest)

theorem Stmt.functions_linked : ∀ s : Stmt, FunctionDecl.AllLinked s.linked.functions
  | .function name params body line => by
    intro d hmem
    obtain rfl | hmem := List.mem_cons.mp hmem
    · exact ⟨body, rfl⟩
    · exact Block.functions_linked body d hmem
  | .compound block => Block.functions_linked block
  | .condition branches otherwise _ =>
    (Branch.listFunctions_linked branches).append (Block.optionFunctions_linked otherwise)
  | .cycle _ body _ => Block.functions_linked body
  | .doCycle body _ _ => Block.functions_linked body
  | .retry _ body _ _ => Block.functions_linked body
  | .included _ body _ => Block.functions_linked body
  | .tryCatch body _ handler _ =>
    (Block.functions_linked body).append (Block.functions_linked handler)
  | .assign .. | .const .. | .label .. | .goto .. | .gosub .. | .ret .. | .exit .. | .error ..
  | .throw .. | .delay .. | .suspend .. | .status .. | .declareWeb .. | .call .. | .input ..
  | .comment .. | .doc .. | .noop .. => nofun

theorem Block.optionFunctions_linked :
    ∀ b : Option Block, FunctionDecl.AllLinked (Block.optionFunctions (Block.optionLinked b))
  | some b => Block.functions_linked b
  | none => nofun

theorem Branch.listFunctions_linked :
    ∀ branches : List Branch,
      FunctionDecl.AllLinked (Branch.listFunctions (Branch.listLinked branches))
  | [] => nofun
  | .mk _ block :: rest => (Block.functions_linked block).append (Branch.listFunctions_linked rest)

end

/-! ## Listings

Labels and jumps are found in a listing of a unit with positions. What is listed stands where the
listing says; that nothing is left out is not needed here, and shown in `Proofs/JumpCheck`. -/

namespace Block

/-- The statement of an entry stands at its position, in a listing that started with the block at
`path`. The position is counted from the root of the unit, and the block may be any on the way. -/
def Holds (b : Block) (path : BlockPath) (entry : StmtPath × Stmt) : Prop :=
  ∃ rest, entry.1.block = path ++ rest ∧ b.stmtAt? ⟨rest, entry.1.index⟩ = some entry.2

theorem holds_here {b : Block} {index : Nat} {s : Stmt} (h : b.body[index]? = some s)
    (path : BlockPath) : b.Holds path (⟨path, index⟩, s) :=
  ⟨[], (List.append_nil path).symm, h⟩

theorem Holds.outer {b c : Block} {path : BlockPath} {index : Nat} {s : Stmt} {sel : BlockSel}
    {entry : StmtPath × Stmt} (hs : b.body[index]? = some s) (hc : s.block? sel = some c)
    (h : c.Holds (StmtPath.child ⟨path, index⟩ sel) entry) : b.Holds path entry := by
  obtain ⟨rest, hpath, hstmt⟩ := h
  refine ⟨(index, sel) :: rest, ?_, ?_⟩
  · rw [hpath, StmtPath.child, List.append_assoc, List.singleton_append]
  · obtain ⟨inner, hinner, hindex⟩ := stmtAt?_eq_some.mp hstmt
    exact stmtAt?_eq_some.mpr
      ⟨inner, follow?_cons_eq_some.mpr ⟨s, c, hs, hc, hinner⟩, hindex⟩

end Block

mutual

/-- What is listed stands at its position. The five are by the recursion of the listing, which goes
through the lists and options in the tree. -/
theorem Block.mem_statements {entry : StmtPath × Stmt} :
    ∀ (b : Block) (path : BlockPath), entry ∈ b.statements path → b.Holds path entry
  | .mk body line endLine, path, h =>
    Stmt.mem_listStatements body (.mk body line endLine) path 0 rfl h

/-- The listing of a block from one of its statements on. That what is left is the body from there
on is a hypothesis, so that indices refer to the whole body. -/
theorem Stmt.mem_listStatements {entry : StmtPath × Stmt} :
    ∀ (ss : List Stmt) (b : Block) (path : BlockPath) (index : Nat), b.body.drop index = ss →
      entry ∈ Stmt.listStatements path index ss → b.Holds path entry
  | [], _, _, _, _, h => nomatch h
  | s :: rest, b, path, index, hss, h => by
    -- the listing is at `index`, and what is left of it is the body from there on
    have hs : b.body[index]? = some s := by
      rw [← List.head?_drop, hss, List.head?_cons]
    have hrest : b.body.drop (index + 1) = rest := by
      rw [← List.tail_drop, hss, List.tail_cons]
    rw [Stmt.listStatements, List.cons_append] at h
    obtain rfl | h := List.mem_cons.mp h
    · exact Block.holds_here hs path
    · obtain h | h := List.mem_append.mp h
      · obtain ⟨sel, c, hc, hholds⟩ := Stmt.mem_nested s ⟨path, index⟩ h
        exact hholds.outer hs hc
      · exact Stmt.mem_listStatements rest b path (index + 1) hrest h

theorem Stmt.mem_nested {entry : StmtPath × Stmt} :
    ∀ (s : Stmt) (place : StmtPath), entry ∈ s.nested place →
      ∃ sel c, s.block? sel = some c ∧ c.Holds (place.child sel) entry
  | .compound block, place, h => ⟨.body, block, rfl, Block.mem_statements block _ h⟩
  | .cycle _ body _, place, h => ⟨.body, body, rfl, Block.mem_statements body _ h⟩
  | .doCycle body _ _, place, h => ⟨.body, body, rfl, Block.mem_statements body _ h⟩
  | .retry _ body _ _, place, h => ⟨.body, body, rfl, Block.mem_statements body _ h⟩
  | .included _ body _, place, h => ⟨.body, body, rfl, Block.mem_statements body _ h⟩
  | .tryCatch body _ handler _, place, h => by
    obtain h | h := List.mem_append.mp h
    · exact ⟨.body, body, rfl, Block.mem_statements body _ h⟩
    · exact ⟨.handler, handler, rfl, Block.mem_statements handler _ h⟩
  | .condition branches otherwise _, place, h => by
    obtain h | h := List.mem_append.mp h
    · obtain ⟨j, branch, hj, hholds⟩ := Branch.mem_listStatements branches place 0 h
      rw [Nat.zero_add] at hholds
      refine ⟨.branch j, branch.block, ?_, hholds⟩
      rw [Stmt.block?, hj, Option.map_some]
    · obtain ⟨c, rfl, hholds⟩ := Block.mem_optionStatements otherwise _ h
      exact ⟨.otherwise, c, rfl, hholds⟩
  | .assign .., _, h | .const .., _, h | .label .., _, h | .goto .., _, h | .gosub .., _, h
  | .ret .., _, h | .exit .., _, h | .error .., _, h | .throw .., _, h | .delay .., _, h
  | .suspend .., _, h | .status .., _, h | .declareWeb .., _, h | .function .., _, h
  | .call .., _, h | .input .., _, h | .comment .., _, h | .doc .., _, h | .noop .., _, h =>
    nomatch h

theorem Block.mem_optionStatements {entry : StmtPath × Stmt} :
    ∀ (b : Option Block) (path : BlockPath), entry ∈ Block.optionStatements path b →
      ∃ c, b = some c ∧ c.Holds path entry
  | some c, path, h => ⟨c, rfl, Block.mem_statements c path h⟩
  | none, _, h => nomatch h

theorem Branch.mem_listStatements {entry : StmtPath × Stmt} :
    ∀ (branches : List Branch) (place : StmtPath) (index : Nat),
      entry ∈ Branch.listStatements place index branches →
      ∃ (j : Nat) (branch : Branch), branches[j]? = some branch ∧
        branch.block.Holds (place.child (.branch (index + j))) entry
  | [], _, _, h => nomatch h
  | .mk test block :: rest, place, index, h => by
    rw [Branch.listStatements] at h
    obtain h | h := List.mem_append.mp h
    · exact ⟨0, .mk test block, rfl, Block.mem_statements block _ h⟩
    · obtain ⟨j, branch, hj, hholds⟩ := Branch.mem_listStatements rest place (index + 1) h
      rw [Nat.add_assoc, Nat.add_comm 1 j] at hholds
      exact ⟨j + 1, branch, hj, hholds⟩

end

/-! ## Label tables -/

theorem Block.labelSites_stmtAt? {b : Block} {site : LabelSite} (h : site ∈ b.labelSites) :
    b.stmtAt? site.place = some (.label site.name site.line) := by
  obtain ⟨⟨place, s⟩, hmem, hsite⟩ := List.mem_filterMap.mp h
  obtain ⟨rest, hpath, hstmt⟩ := Block.mem_statements b [] hmem
  cases s with
  | label name line =>
    cases hsite
    obtain rfl : place.block = rest := hpath
    exact hstmt
  | _ => cases hsite

/-- What a table holds after more labels was there before, or comes from one of them. -/
theorem LabelTable.get?_foldl {sites : List LabelSite} {table : LabelTable} {name : String}
    {place : StmtPath}
    (h : Assoc.get? name
      (sites.foldl
        (fun table site =>
          if Assoc.contains site.name table then table else Assoc.put site.name site.place table)
        table) = some place) :
    Assoc.get? name table = some place ∨ ∃ site ∈ sites, site.name = name ∧
      site.place = place := by
  induction sites generalizing table with
  | nil => exact .inl h
  | cons site rest ih =>
    obtain htable | ⟨site', hmem, hsite⟩ := ih h
    · dsimp only at htable
      split at htable
      · exact .inl htable
      · rw [Assoc.get?_put] at htable
        split at htable
        · rename_i hname
          cases htable
          exact .inr ⟨site, List.mem_cons_self, hname, rfl⟩
        · exact .inl htable
    · exact .inr ⟨site', List.mem_cons_of_mem _ hmem, hsite⟩

theorem Block.stmtAt?_of_label {b : Block} {name : String} {target : StmtPath}
    (h : Assoc.get? name (LabelTable.ofSites b.labelSites) = some target) :
    ∃ line, b.stmtAt? target = some (.label name line) := by
  obtain hnone | ⟨site, hmem, rfl, rfl⟩ := LabelTable.get?_foldl h
  · cases hnone
  · exact ⟨site.line, Block.labelSites_stmtAt? hmem⟩

namespace Program

/-- What linking guarantees of a program. -/
structure Linked (p : Program) : Prop where
  unitRoot : ∀ u root, p.unitRoot? u = some root → ∃ b : Block, root = b.linked
  label : ∀ u name target, p.label? u name = some target →
    ∃ root line, p.unitRoot? u = some root ∧ root.stmtAt? target = some (.label name line)

theorem function?_link {script : Block} {name : String} {d : FunctionDef}
    (h : (link script).function? name = some d) :
    ∃ decl ∈ script.linked.functions, d = FunctionDef.ofDecl decl := by
  obtain ⟨decl, hmem, hpair⟩ := List.mem_map.mp (Assoc.mem_of_get?_ofList h)
  cases hpair
  exact ⟨decl, hmem, rfl⟩

theorem linked_link (script : Block) : (link script).Linked where
  unitRoot := by
    intro u root h
    cases u with
    | main => exact ⟨script, (Option.some.inj h).symm⟩
    | function name =>
      obtain ⟨d, hd, rfl⟩ := Option.map_eq_some_iff.mp h
      obtain ⟨decl, hmem, rfl⟩ := function?_link hd
      exact Block.functions_linked script decl hmem
  label := by
    intro u name target h
    cases u with
    | main =>
      obtain ⟨line, hstmt⟩ := Block.stmtAt?_of_label h
      exact ⟨_, line, rfl, hstmt⟩
    | function f =>
      simp only [label?] at h
      cases hd : (link script).function? f with
      | none => rw [hd] at h; cases h
      | some d =>
        rw [hd] at h
        obtain ⟨decl, hmem, rfl⟩ := function?_link hd
        obtain ⟨line, hstmt⟩ := Block.stmtAt?_of_label h
        refine ⟨decl.body, line, ?_, hstmt⟩
        rw [unitRoot?, hd]
        rfl

end Program

end Stepwise
