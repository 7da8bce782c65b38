import Stepwise.Proofs.Termination

/-!
# How deep stacks get

Units and stacks put aside are counted against the limit of the options, once when a function is
called and once when a subroutine is. Frames are counted by nobody; they follow the nesting of the
script. A block has one frame, and the statement that runs in it one more at most, so **a stack is
no longer than twice the number of blocks on the longest route, that of the unit included**
(`depths_bounded`), however the run has come there.

The nesting is measured by routes, the paths by which positions are given. `Block.Deepest` says what
the measure is without computing it: some route is that long, and none is longer. `Block.depth`
computes it, by recursion over the tree, and the first section shows the two to agree. The bound is
sharp: a condition that is at its test, in the handler of a try statement, stands on a stack of just
this length.

Frames and units come from elsewhere: `Proofs/Placement` has the shape of stacks, and
`Proofs/Termination` the bounds on units and stacks put aside (`Reachable.shallow`).
-/

namespace Stepwise

open Relation

/-! ## Routes -/

mutual

/-- The length of the longest route to a block that is nested in this one. -/
def Block.depth : Block → Nat
  | .mk body _ _ => Stmt.listDepth body

/-- The longest of the routes through these statements. -/
def Stmt.listDepth : List Stmt → Nat
  | [] => 0
  | s :: rest => max s.depth (Stmt.listDepth rest)

/-- The same for the routes that go through a statement. The body of a function is a unit of its
own. -/
def Stmt.depth : Stmt → Nat
  | .compound block => block.depth + 1
  | .condition branches otherwise _ => max (Branch.listDepth branches) (Block.optionDepth otherwise)
  | .cycle _ body _ => body.depth + 1
  | .doCycle body _ _ => body.depth + 1
  | .retry _ body _ _ => body.depth + 1
  | .included _ body _ => body.depth + 1
  | .tryCatch body _ handler _ => max (body.depth + 1) (handler.depth + 1)
  | _ => 0

def Block.optionDepth : Option Block → Nat
  | some block => block.depth + 1
  | none => 0

def Branch.listDepth : List Branch → Nat
  | [] => 0
  | .mk _ block :: rest => max (block.depth + 1) (Branch.listDepth rest)

end

/-- The longest route to a block of this unit has `d` turns. Turns are counted, and not statements,
so a block without blocks has depth zero. -/
structure Block.Deepest (root : Block) (d : Nat) : Prop where
  reached : ∃ path c, root.follow? path = some c ∧ path.length = d
  bound : ∀ path c, root.follow? path = some c → path.length ≤ d

namespace Stmt

theorem depth_le_of_getElem? {ss : List Stmt} {i : Nat} {s : Stmt} (h : ss[i]? = some s) :
    s.depth ≤ listDepth ss := by
  induction ss generalizing i with
  | nil => simp at h
  | cons first rest ih =>
    rw [listDepth]
    cases i with
    | zero =>
      obtain rfl : first = s := by simpa using h
      exact Nat.le_max_left _ _
    | succ i =>
      have hrest : rest[i]? = some s := by simpa using h
      exact Nat.le_trans (ih hrest) (Nat.le_max_right _ _)

theorem exists_depth_eq {ss : List Stmt} (h : listDepth ss ≠ 0) :
    ∃ (i : Nat) (s : Stmt), ss[i]? = some s ∧ s.depth = listDepth ss := by
  induction ss with
  | nil => exact absurd rfl h
  | cons first rest ih =>
    rw [listDepth] at h ⊢
    by_cases hle : listDepth rest ≤ first.depth
    · exact ⟨0, first, rfl, (Nat.max_eq_left hle).symm⟩
    · have hrest : max first.depth (listDepth rest) = listDepth rest := Nat.max_eq_right (by omega)
      rw [hrest] at h ⊢
      obtain ⟨i, s, hs, hdepth⟩ := ih h
      exact ⟨i + 1, s, by simpa using hs, hdepth⟩

end Stmt

namespace Branch

theorem depth_lt_of_getElem? {branches : List Branch} {i : Nat} {branch : Branch}
    (h : branches[i]? = some branch) : branch.block.depth + 1 ≤ listDepth branches := by
  induction branches generalizing i with
  | nil => simp at h
  | cons first rest ih =>
    obtain ⟨test, block⟩ := first
    rw [listDepth]
    cases i with
    | zero =>
      obtain rfl : Branch.mk test block = branch := by simpa using h
      exact Nat.le_max_left _ _
    | succ i =>
      have hrest : rest[i]? = some branch := by simpa using h
      exact Nat.le_trans (ih hrest) (Nat.le_max_right _ _)

theorem exists_depth_eq {branches : List Branch} (h : listDepth branches ≠ 0) :
    ∃ (i : Nat) (branch : Branch), branches[i]? = some branch ∧
      branch.block.depth + 1 = listDepth branches := by
  induction branches with
  | nil => exact absurd rfl h
  | cons first rest ih =>
    obtain ⟨test, block⟩ := first
    rw [listDepth] at h ⊢
    by_cases hle : listDepth rest ≤ block.depth + 1
    · exact ⟨0, .mk test block, rfl, (Nat.max_eq_left hle).symm⟩
    · have hrest : max (block.depth + 1) (listDepth rest) = listDepth rest :=
        Nat.max_eq_right (by omega)
      rw [hrest] at h ⊢
      obtain ⟨i, branch, hbranch, hdepth⟩ := ih h
      exact ⟨i + 1, branch, by simpa using hbranch, hdepth⟩

end Branch

namespace Stmt

theorem depth_lt_of_block? {s : Stmt} {sel : BlockSel} {c : Block} (h : s.block? sel = some c) :
    c.depth + 1 ≤ s.depth := by
  cases s with
  | condition branches otherwise line =>
    rw [depth]
    cases sel with
    | branch i =>
      obtain ⟨branch, hbranch, rfl⟩ := Option.map_eq_some_iff.mp h
      exact Nat.le_trans (Branch.depth_lt_of_getElem? hbranch) (Nat.le_max_left _ _)
    | otherwise =>
      obtain rfl : otherwise = some c := h
      exact Nat.le_max_right _ _
    | body => cases h
    | handler => cases h
  | tryCatch body catchVar handler line =>
    rw [depth]
    cases sel with
    | body =>
      cases h
      exact Nat.le_max_left _ _
    | handler =>
      cases h
      exact Nat.le_max_right _ _
    | branch => cases h
    | otherwise => cases h
  -- one block each, so the depth is that of the block and one
  | compound | cycle | doCycle | retry | included =>
    cases sel with
    | body =>
      cases h
      rw [depth]
    | _ => cases h
  | _ => cases h

theorem exists_block?_depth {s : Stmt} (h : s.depth ≠ 0) :
    ∃ sel c, s.block? sel = some c ∧ c.depth + 1 = s.depth := by
  cases s with
  | condition branches otherwise line =>
    rw [depth] at h ⊢
    by_cases hle : Block.optionDepth otherwise ≤ Branch.listDepth branches
    · rw [Nat.max_eq_left hle] at h ⊢
      obtain ⟨i, branch, hbranch, hdepth⟩ := Branch.exists_depth_eq h
      exact ⟨.branch i, branch.block, by simp [block?, hbranch], hdepth⟩
    · rw [Nat.max_eq_right (by omega)] at h ⊢
      cases otherwise with
      | none => exact absurd rfl h
      | some block => exact ⟨.otherwise, block, rfl, rfl⟩
  | tryCatch body catchVar handler line =>
    rw [depth]
    by_cases hle : handler.depth + 1 ≤ body.depth + 1
    · exact ⟨.body, body, rfl, (Nat.max_eq_left hle).symm⟩
    · exact ⟨.handler, handler, rfl, (Nat.max_eq_right (by omega)).symm⟩
  | compound block => exact ⟨.body, block, rfl, by rw [depth]⟩
  | cycle test body line => exact ⟨.body, body, rfl, by rw [depth]⟩
  | doCycle body test line => exact ⟨.body, body, rfl, by rw [depth]⟩
  | retry attempts body test line => exact ⟨.body, body, rfl, by rw [depth]⟩
  | included source body line => exact ⟨.body, body, rfl, by rw [depth]⟩
  | _ => simp [depth] at h

end Stmt

namespace Block

theorem depth_eq_listDepth (b : Block) : b.depth = Stmt.listDepth b.body := by
  obtain ⟨body, line, endLine⟩ := b
  rw [depth, Block.body]

/-- No route is longer than the depth. Each turn goes into a block of a statement of the block. -/
theorem length_le_depth {b c : Block} {path : BlockPath} (h : b.follow? path = some c) :
    path.length ≤ b.depth := by
  induction path generalizing b with
  | nil => exact Nat.zero_le _
  | cons turn rest ih =>
    obtain ⟨index, sel⟩ := turn
    obtain ⟨stmt, child, hstmt, hchild, hrest⟩ := follow?_cons_eq_some.mp h
    have hthrough := Stmt.depth_lt_of_block? hchild
    have hhere := Stmt.depth_le_of_getElem? hstmt
    have hdeeper := ih hrest
    rw [← depth_eq_listDepth] at hhere
    rw [List.length_cons]
    omega

/-- Some route is as long. Where the depth is not zero, a statement has it, and one of its blocks
has one less. -/
theorem exists_length_eq_depth (b : Block) :
    ∃ path c, b.follow? path = some c ∧ path.length = b.depth := by
  -- each turn of the longest route takes one from the depth
  induction hd : b.depth generalizing b with
  | zero => exact ⟨[], b, rfl, rfl⟩
  | succ d ih =>
    rw [depth_eq_listDepth] at hd
    have hlist : Stmt.listDepth b.body ≠ 0 := by simp [hd]
    obtain ⟨index, stmt, hstmt, hhere⟩ := Stmt.exists_depth_eq hlist
    obtain ⟨sel, child, hchild, hthrough⟩ := Stmt.exists_block?_depth (s := stmt) (by omega)
    obtain ⟨rest, c, hrest, hlength⟩ := ih child (by omega)
    refine ⟨(index, sel) :: rest, c, ?_, ?_⟩
    · exact follow?_cons_eq_some.mpr ⟨stmt, child, hstmt, hchild, hrest⟩
    · rw [List.length_cons, hlength]

theorem deepest_depth (root : Block) : root.Deepest root.depth :=
  ⟨root.exists_length_eq_depth, fun _ _ => length_le_depth⟩

end Block

/-! ## Frames -/

namespace Frame

variable {root : Block}

/-- Each turn of a route brings the frame of a block, and that of a statement at most. Statements
that have no frame while they run make the bound larger than it need be. -/
theorem Surrounds.length_le {path : BlockPath} {b : Block} {below : List Frame}
    (h : Surrounds root path b below) : below.length ≤ 2 * path.length := by
  -- one more turn of the route is two more frames at most
  induction h with
  | root => exact Nat.zero_le _
  | inline outer _ _ _ _ ih =>
    simp only [StmtPath.child, List.length_append, List.length_cons, List.length_nil]
    omega
  | framed outer _ _ _ _ ih =>
    simp only [StmtPath.child, List.length_append, List.length_cons, List.length_nil]
    omega

/-- In front of the frames that surround a block is its own frame, or that of a statement in it with
the frame of the block. -/
theorem Placed.length_le {stack : List Frame} {d : Nat} (h : Placed root stack)
    (deepest : root.Deepest d) : stack.length ≤ 2 * (d + 1) := by
  cases h with
  | ended => exact Nat.zero_le _
  | block inside next replay =>
    have hroute := deepest.bound _ _ inside.follow?
    have hbelow := inside.length_le
    rw [List.length_cons]
    omega
  | statement inside hstmt runs hplace replay replay' =>
    have hroute := deepest.bound _ _ inside.follow?
    have hbelow := inside.length_le
    rw [List.length_cons, List.length_cons]
    omega

end Frame

namespace Machine

variable {σ : Type} {env : Setting σ} {m : Machine σ}

/-- **The options and the nesting of the script bound all stacks of a run**: the units, for each of
them the stacks that its subroutine calls have put aside, and the frames of each of these
stacks. -/
theorem depths_bounded (h : Reachable env m) :
    m.activations.length ≤ env.options.maxCallDepth + 1 ∧
    ∀ act ∈ m.activations, act.subroutines.length ≤ env.options.maxCallDepth ∧
      ∃ root d, env.program.unitRoot? act.unit = some root ∧ root.Deepest d ∧
        ∀ stack ∈ act.frames :: act.subroutines, stack.length ≤ 2 * (d + 1) := by
  have shallow := h.shallow
  refine ⟨shallow.units, ?_⟩
  intro act hact
  refine ⟨shallow.subroutines act hact, ?_⟩
  obtain ⟨root, placed⟩ := h.placed.placed act hact
  refine ⟨root, root.depth, placed.unit, root.deepest_depth, ?_⟩
  intro stack hstack
  rcases List.mem_cons.mp hstack with rfl | hstack
  · exact placed.frames.length_le root.deepest_depth
  · exact (placed.subroutines stack hstack).1.length_le root.deepest_depth

/-- A function whose subroutine enters itself until it is refused, and the handler of that is a
condition without branches. -/
def brimming : Block :=
  .mk
    [.function "f" []
      (.mk
        [.tryCatch (.mk [.label "again" 3, .gosub "again" 4] 2 5) none
          (.mk [.condition [] none 6] 5 7) 2]
        1 8)
      1,
      .call "f" [] 9]
    0 10

/-- With a limit of one all bounds are reached at once. -/
theorem depths_bounded_brimming :
    let env : Setting Unit := ⟨Program.link brimming, ⟨1.0, false, 1⟩, .null ""⟩
    let m := (Machine.new .empty ()).ticks env 8
    m.activations.length = 2 ∧
    (m.activations.map fun act =>
        (act.subroutines.length, act.frames.length,
          (env.program.unitRoot? act.unit).map Block.depth)) =
      [(1, 4, some 1), (0, 1, some 0)] ∧
    ∀ act ∈ m.activations, act.subroutines.length ≤ 1 ∧
      ∃ root d, env.program.unitRoot? act.unit = some root ∧ root.Deepest d ∧
        ∀ stack ∈ act.frames :: act.subroutines, stack.length ≤ 2 * (d + 1) := by
  intro env m
  have hunits : m.activations.length = 2 := by decide +kernel
  have hframes : (m.activations.map fun act =>
        (act.subroutines.length, act.frames.length,
          (env.program.unitRoot? act.unit).map Block.depth)) =
      [(1, 4, some 1), (0, 1, some 0)] := by
    decide +kernel
  have h : Reachable env m := (Reachable.new .empty ()).ticks 8
  exact ⟨hunits, hframes, (depths_bounded h).2⟩

end Machine

end Stepwise
