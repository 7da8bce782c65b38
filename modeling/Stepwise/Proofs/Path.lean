import Stepwise.Program.Basic

/-!
# Following positions

A position in a unit is a route: at each turn the index of a statement and which of its blocks to
enter. It is followed from the outside in (`Block.follow?`), but a run makes positions by going one
block deeper at a time, at the far end of the route. So both ends have to be taken apart.

The lemmas with `eq_some` say what there is at a position that leads somewhere, and take its first
turn apart. `follow?_child` adds a last turn. Together with their counterparts for programs they are
all that the placement of frames, the listing of labels and the simulation of structured scripts use
of positions; the definitions are not unfolded elsewhere.
-/

namespace Stepwise

namespace Block

/-- The first turn goes into a block of a statement, and the rest of the route is followed from
there. -/
theorem follow?_cons_eq_some {b c : Block} {index : Nat} {sel : BlockSel} {rest : BlockPath} :
    b.follow? ((index, sel) :: rest) = some c ↔
      ∃ stmt child, b.body[index]? = some stmt ∧ stmt.block? sel = some child ∧
        child.follow? rest = some c := by
  rw [follow?]
  constructor
  · intro h
    cases hstmt : b.body[index]? with
    | none => rw [hstmt] at h; cases h
    | some stmt =>
      rw [hstmt] at h
      dsimp only at h
      cases hchild : stmt.block? sel with
      | none => rw [hchild] at h; cases h
      | some child =>
        rw [hchild] at h
        exact ⟨stmt, child, rfl, hchild, h⟩
  · rintro ⟨stmt, child, hstmt, hchild, h⟩
    simp only [hstmt, hchild, h]

theorem stmtAt?_eq_some {b : Block} {place : StmtPath} {stmt : Stmt} :
    b.stmtAt? place = some stmt ↔
      ∃ c, b.follow? place.block = some c ∧ c.body[place.index]? = some stmt := by
  rw [stmtAt?]
  constructor
  · intro h
    cases hc : b.follow? place.block with
    | none => rw [hc] at h; cases h
    | some c =>
      rw [hc] at h
      exact ⟨c, rfl, h⟩
  · rintro ⟨c, hc, hstmt⟩
    simp only [hc, hstmt]

/-- The last turn goes into a block of the statement at its place. The definition takes turns from
the front, so this one is by induction on the route. -/
theorem follow?_child {b c d : Block} {path : BlockPath} {index : Nat} {stmt : Stmt}
    {sel : BlockSel} (hc : b.follow? path = some c) (hstmt : c.body[index]? = some stmt)
    (hd : stmt.block? sel = some d) :
    b.follow? (StmtPath.child ⟨path, index⟩ sel) = some d := by
  induction path generalizing b with
  | nil =>
    cases hc
    exact follow?_cons_eq_some.mpr ⟨stmt, d, hstmt, hd, rfl⟩
  | cons turn path ih =>
    obtain ⟨outer, child, houter, hchild, hrest⟩ := follow?_cons_eq_some.mp hc
    exact follow?_cons_eq_some.mpr ⟨outer, child, houter, hchild, ih hrest⟩

end Block

namespace Program

variable {p : Program} {u : CodeUnit}

theorem block?_eq_some {path : BlockPath} {b : Block} :
    p.block? u path = some b ↔
      ∃ root, p.unitRoot? u = some root ∧ root.follow? path = some b := by
  rw [block?]
  constructor
  · intro h
    cases hroot : p.unitRoot? u with
    | none => rw [hroot] at h; cases h
    | some root =>
      rw [hroot] at h
      exact ⟨root, rfl, h⟩
  · rintro ⟨root, hroot, h⟩
    simp only [hroot, h]

theorem stmt?_of_block? {path : BlockPath} {b : Block} (h : p.block? u path = some b)
    (index : Nat) :
    p.stmt? u ⟨path, index⟩ = b.body[index]? := by
  obtain ⟨root, hroot, hb⟩ := block?_eq_some.mp h
  simp only [stmt?, hroot, Block.stmtAt?, hb]

theorem block?_of_stmt? {path : BlockPath} {index : Nat} {stmt : Stmt}
    (h : p.stmt? u ⟨path, index⟩ = some stmt) :
    ∃ b, p.block? u path = some b ∧ b.body[index]? = some stmt := by
  rw [stmt?] at h
  cases hroot : p.unitRoot? u with
  | none => rw [hroot] at h; cases h
  | some root =>
    rw [hroot] at h
    obtain ⟨b, hb, hstmt⟩ := Block.stmtAt?_eq_some.mp h
    exact ⟨b, block?_eq_some.mpr ⟨root, hroot, hb⟩, hstmt⟩

/-- The block of a statement is at the position of the statement and one turn more. Frames for
nested blocks get their positions in this way. -/
theorem block?_child {place : StmtPath} {stmt : Stmt} {sel : BlockSel} {b : Block}
    (h : p.stmt? u place = some stmt) (hb : stmt.block? sel = some b) :
    p.block? u (place.child sel) = some b := by
  obtain ⟨c, hc, hstmt⟩ := block?_of_stmt? h
  obtain ⟨root, hroot, hfollow⟩ := block?_eq_some.mp hc
  exact block?_eq_some.mpr ⟨root, hroot, Block.follow?_child hfollow hstmt hb⟩

end Program

end Stepwise
