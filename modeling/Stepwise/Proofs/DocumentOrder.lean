import Stepwise.Proofs.JumpCheck

/-!
# The order of the text

Where a statement lies in a unit is said here without the functions that walk a script: by the forms
of nesting, one at a time (`Block.Lies`), and by comparing routes turn by turn
(`StmtPath.Precedes`). **The listing of a unit has exactly the statements that lie in it, in the
order of the text** (`Block.mem_statements_iff`, `Block.pairwise_statements`), and the functions of
a script are listed in the order of their declarations, each in front of those inside its body
(`Block.declarations_spec`).

The tables of a linked script are made from these listings, and which entry of a table counts is a
matter of order: the first label of a name, the last function of a name. `Proofs/LabelTables` says
this of the tables with the notions of this module.

## Positions and routes

A position in a unit is a route through blocks and an index at its end. Of two routes the first turn
in which they part decides: the earlier statement, or the earlier block of one statement. Where one
route ends at a statement that the other goes into, the statement itself comes first.

The body of a function is a unit of its own. So a function inside another has no position in the
outer unit, and is found by a list of positions, one for each unit on the way; these lists compare
lexicographically.
-/

namespace Stepwise

/-! ## Where a statement lies -/

/-- The blocks of a statement that belong to the unit it is in. The body of a function does not. -/
inductive Stmt.Encloses : Stmt → BlockSel → Block → Prop where
  | compound (block : Block) : Encloses (.compound block) .body block
  | branch {branches : List Branch} {i : Nat} {branch : Branch} (h : branches[i]? = some branch)
      (otherwise : Option Block) (line : Line) :
      Encloses (.condition branches otherwise line) (.branch i) branch.block
  | otherwise (branches : List Branch) (block : Block) (line : Line) :
      Encloses (.condition branches (some block) line) .otherwise block
  | cycle (test : Expr) (body : Block) (line : Line) : Encloses (.cycle test body line) .body body
  | doCycle (body : Block) (test : Expr) (line : Line) :
      Encloses (.doCycle body test line) .body body
  | retry (attempts : Expr) (body : Block) (test : Option Expr) (line : Line) :
      Encloses (.retry attempts body test line) .body body
  | guarded (body : Block) (catchVar : Option String) (handler : Block) (line : Line) :
      Encloses (.tryCatch body catchVar handler line) .body body
  | handler (body : Block) (catchVar : Option String) (handler : Block) (line : Line) :
      Encloses (.tryCatch body catchVar handler line) .handler handler
  | included (source : String) (body : Block) (line : Line) :
      Encloses (.included source body line) .body body

/-- The statement lies in the unit, at this position. A position is read from the outside in, so the
relation goes from a block to the blocks inside it, one turn of the route at a time. -/
inductive Block.Lies : Block → StmtPath → Stmt → Prop where
  | here {b : Block} {index : Nat} {s : Stmt} (h : b.body[index]? = some s) :
      Lies b ⟨[], index⟩ s
  | nested {b c : Block} {index : Nat} {outer : Stmt} {sel : BlockSel} {path : BlockPath}
      {i : Nat} {s : Stmt}
      (houter : b.body[index]? = some outer) (hc : outer.Encloses sel c)
      (h : c.Lies ⟨path, i⟩ s) :
      Lies b ⟨(index, sel) :: path, i⟩ s

/-- The relation is the one that selectors follow. The only block that may be absent behind its
selector is that of a branch, since there are as many as are written. -/
theorem Stmt.encloses_iff {s : Stmt} {sel : BlockSel} {c : Block} :
    s.Encloses sel c ↔ s.block? sel = some c := by
  constructor
  · intro h
    cases h with
    | branch h => rw [block?, h, Option.map_some]
    | _ => rfl
  · intro h
    unfold block? at h
    split at h
    · cases h
      exact .compound _
    · obtain ⟨branch, hbranch, rfl⟩ := Option.map_eq_some_iff.mp h
      exact .branch hbranch _ _
    -- the block that stands for none of the branches is itself optional
    · subst h
      exact .otherwise _ _ _
    · cases h
      exact .cycle _ _ _
    · cases h
      exact .doCycle _ _ _
    · cases h
      exact .retry _ _ _ _
    · cases h
      exact .guarded _ _ _ _
    · cases h
      exact .handler _ _ _ _
    · cases h
      exact .included _ _ _
    · cases h

/-- Following a position finds the statement that lies there. So a position has one statement at
most, which the relation alone does not show. -/
theorem Block.lies_iff {b : Block} {place : StmtPath} {s : Stmt} :
    b.Lies place s ↔ b.stmtAt? place = some s := by
  rw [stmtAt?_eq_some]
  constructor
  · intro h
    induction h with
    | here h => exact ⟨_, rfl, h⟩
    | nested houter hc _ ih =>
      obtain ⟨inner, hinner, hs⟩ := ih
      exact ⟨inner, follow?_cons_eq_some.mpr ⟨_, _, houter, Stmt.encloses_iff.mp hc, hinner⟩,
        hs⟩
  · obtain ⟨path, index⟩ := place
    rintro ⟨inner, hinner, hs⟩
    induction path generalizing b with
    | nil =>
      cases hinner
      exact .here hs
    | cons turn path ih =>
      obtain ⟨i, sel⟩ := turn
      obtain ⟨outer, c, houter, hc, hrest⟩ := follow?_cons_eq_some.mp hinner
      exact .nested houter (Stmt.encloses_iff.mpr hc) (ih hrest hs)

/-! ## The order of positions -/

/-- Which of two blocks of a statement comes first in the text. Blocks of different statements are
never compared, so for most pairs there is no answer to give. -/
def BlockSel.before : BlockSel → BlockSel → Bool
  | .branch i, .branch j => i < j
  | .branch _, .otherwise => true
  | .body, .handler => true
  | _, _ => false

theorem BlockSel.before_asymm {sel sel' : BlockSel} (h : sel.before sel' = true) :
    sel'.before sel = false := by
  cases sel <;> cases sel' <;> simp_all [before]
  omega

theorem BlockSel.before_irrefl (sel : BlockSel) : sel.before sel = false := by
  cases sel <;> simp [before]

namespace StmtPath

/-- Statement `m` of the block at one route comes before statement `n` of the block at another. A
statement comes before what is nested in it. -/
def Ordered : BlockPath → Nat → BlockPath → Nat → Prop
  | [], m, [], n => m < n
  | [], m, (j, _) :: _, _ => m ≤ j
  | (i, _) :: _, _, [], n => i < n
  | (i, sel) :: path, m, (j, sel') :: path', n =>
    i < j ∨ i = j ∧ (sel.before sel' = true ∨ sel = sel' ∧ Ordered path m path' n)

/-- The one position comes before the other in the text of a unit. It is total on the positions of
statements that a unit has, but this is not needed: lists only have to be in order. -/
def Precedes (p q : StmtPath) : Prop :=
  Ordered p.block p.index q.block q.index

theorem Ordered.asymm {path path' : BlockPath} {m n : Nat} (h : Ordered path m path' n) :
    ¬ Ordered path' n path m := by
  induction path generalizing path' with
  | nil =>
    cases path' with
    | nil =>
      simp only [Ordered] at h ⊢
      omega
    | cons turn rest =>
      simp only [Ordered] at h ⊢
      omega
  -- in both directions the first turn decides, so the two cannot part the same way
  | cons turn path ih =>
    obtain ⟨i, sel⟩ := turn
    cases path' with
    | nil =>
      simp only [Ordered] at h ⊢
      omega
    | cons turn' path' =>
      obtain ⟨j, sel'⟩ := turn'
      simp only [Ordered] at h ⊢
      rintro (hlt | ⟨rfl, hback⟩)
      · obtain hlt' | ⟨heq, -⟩ := h <;> omega
      · obtain hlt' | ⟨-, hsel | ⟨rfl, hrest⟩⟩ := h
        · omega
        · obtain hsel' | ⟨rfl, -⟩ := hback
          · rw [BlockSel.before_asymm hsel] at hsel'
            cases hsel'
          · rw [BlockSel.before_irrefl] at hsel
            cases hsel
        · obtain hsel' | ⟨-, hrest'⟩ := hback
          · rw [BlockSel.before_irrefl] at hsel'
            cases hsel'
          · exact ih hrest hrest'

theorem Precedes.asymm {p q : StmtPath} (h : p.Precedes q) : ¬ q.Precedes p :=
  Ordered.asymm h

theorem Precedes.irrefl (p : StmtPath) : ¬ p.Precedes p :=
  fun h => h.asymm h

/-- What two routes have in common does not count. Comparisons are made from the statement on at
which two routes part, and this is what allows it. -/
theorem ordered_append (path rest rest' : BlockPath) (m n : Nat) :
    Ordered (path ++ rest) m (path ++ rest') n ↔ Ordered rest m rest' n := by
  induction path with
  | nil => exact Iff.rfl
  | cons turn path ih =>
    obtain ⟨i, sel⟩ := turn
    simp only [List.cons_append, Ordered, BlockSel.before_irrefl, ih, Nat.lt_irrefl,
      Bool.false_eq_true, true_and, false_or]

def Under (place : StmtPath) (sel : BlockSel) (q : StmtPath) : Prop :=
  ∃ rest, q.block = place.child sel ++ rest

/-- The position is a statement or in one of its blocks. What is listed for a statement is of this
kind, and nothing else is. -/
def Through (place q : StmtPath) : Prop :=
  q = place ∨ ∃ sel, Under place sel q

theorem Under.block_eq {path : BlockPath} {i : Nat} {sel : BlockSel} {q : StmtPath}
    (h : Under ⟨path, i⟩ sel q) :
    ∃ rest, q.block = path ++ (i, sel) :: rest := by
  obtain ⟨rest, h⟩ := h
  exact ⟨rest, by rw [h, child, List.append_assoc, List.singleton_append]⟩

theorem precedes_of_under {place q : StmtPath} {sel : BlockSel} (h : Under place sel q) :
    place.Precedes q := by
  obtain ⟨path, i⟩ := place
  obtain ⟨rest, hrest⟩ := h.block_eq
  rw [Precedes, hrest]
  have hnil := ordered_append path [] ((i, sel) :: rest) i q.index
  rw [List.append_nil] at hnil
  exact hnil.mpr (Nat.le_refl i)

/-- What is in an earlier block of a statement comes before what is in a later one. The routes share
all turns up to the statement, and the two blocks are where they part. -/
theorem precedes_of_before {place p q : StmtPath} {sel sel' : BlockSel} (hp : Under place sel p)
    (hq : Under place sel' q) (h : sel.before sel' = true) : p.Precedes q := by
  obtain ⟨path, i⟩ := place
  obtain ⟨rest, hrest⟩ := hp.block_eq
  obtain ⟨rest', hrest'⟩ := hq.block_eq
  rw [Precedes, hrest, hrest', ordered_append]
  exact .inr ⟨rfl, .inl h⟩

/-- What belongs to an earlier statement of a block comes before what belongs to a later one,
however deep either is nested. -/
theorem precedes_of_lt {path : BlockPath} {i j : Nat} {p q : StmtPath}
    (hp : Through ⟨path, i⟩ p) (hq : Through ⟨path, j⟩ q) (h : i < j) : p.Precedes q := by
  have hblock : ∀ {k : Nat} {q : StmtPath}, Through ⟨path, k⟩ q →
      (q = ⟨path, k⟩ ∨ ∃ sel rest, q.block = path ++ (k, sel) :: rest) := by
    rintro k q (rfl | ⟨sel, hunder⟩)
    · exact .inl rfl
    · exact .inr ⟨sel, hunder.block_eq⟩
  obtain rfl | ⟨sel, rest, hrest⟩ := hblock hp
  · obtain rfl | ⟨sel', rest', hrest'⟩ := hblock hq
    · have hnil := ordered_append path [] [] i j
      rw [List.append_nil] at hnil
      exact hnil.mpr h
    · rw [Precedes, hrest']
      have hnil := ordered_append path [] ((j, sel') :: rest') i q.index
      rw [List.append_nil] at hnil
      exact hnil.mpr (Nat.le_of_lt h)
  · obtain rfl | ⟨sel', rest', hrest'⟩ := hblock hq
    · rw [Precedes, hrest]
      have hnil := ordered_append path ((i, sel) :: rest) [] p.index j
      rw [List.append_nil] at hnil
      exact hnil.mpr h
    · rw [Precedes, hrest, hrest', ordered_append]
      exact .inl h

end StmtPath

/-! ## Listings are in order

A listing puts a statement in front of what it nests, and that in front of the next statement. The
recursion is the one of the listing, and each place where two lists are joined needs that all of the
first comes before all of the second. This is what the three lemmas above are for. -/

open StmtPath

theorem Block.Holds.under {c : Block} {place : StmtPath} {sel : BlockSel} {entry : StmtPath × Stmt}
    (h : c.Holds (place.child sel) entry) : Under place sel entry.1 := by
  obtain ⟨rest, hpath, -⟩ := h
  exact ⟨rest, hpath⟩

theorem Stmt.under_of_mem_nested {s : Stmt} {place : StmtPath} {entry : StmtPath × Stmt}
    (h : entry ∈ s.nested place) : ∃ sel, Under place sel entry.1 := by
  obtain ⟨sel, c, -, hholds⟩ := Stmt.mem_nested s place h
  exact ⟨sel, hholds.under⟩

theorem Stmt.through_of_mem_listStatements {ss : List Stmt} {path : BlockPath} {index : Nat}
    {entry : StmtPath × Stmt} (h : entry ∈ Stmt.listStatements path index ss) :
    ∃ k, index ≤ k ∧ Through ⟨path, k⟩ entry.1 := by
  induction ss generalizing index with
  | nil => cases h
  | cons s rest ih =>
    rw [Stmt.listStatements, List.cons_append] at h
    obtain rfl | h := List.mem_cons.mp h
    · exact ⟨index, Nat.le_refl index, .inl rfl⟩
    obtain h | h := List.mem_append.mp h
    · exact ⟨index, Nat.le_refl index, .inr (Stmt.under_of_mem_nested h)⟩
    · obtain ⟨k, hk, hthrough⟩ := ih h
      exact ⟨k, by omega, hthrough⟩

/-- The entries of a listing, or of anything else with a position, are in the order of the text.
Every entry comes before every later one, so no position is listed twice. -/
def InOrder {α : Type} (entries : List (StmtPath × α)) : Prop :=
  entries.Pairwise fun e e' => e.1.Precedes e'.1

mutual

/-- **A unit is listed in the order of its text.** The recursion is that of the listing, one lemma
for each function of it. -/
theorem Block.pairwise_statements : ∀ (b : Block) (path : BlockPath), InOrder (b.statements path)
  | .mk body _ _, path => Stmt.pairwise_listStatements body path 0

theorem Stmt.pairwise_listStatements :
    ∀ (ss : List Stmt) (path : BlockPath) (index : Nat),
      InOrder (Stmt.listStatements path index ss)
  | [], _, _ => List.Pairwise.nil
  | s :: rest, path, index => by
    have hlater : ∀ entry ∈ Stmt.listStatements path (index + 1) rest, ∀ p,
        Through ⟨path, index⟩ p →
        p.Precedes entry.1 := by
      intro entry hentry p hp
      obtain ⟨k, hk, hthrough⟩ := Stmt.through_of_mem_listStatements hentry
      exact precedes_of_lt hp hthrough hk
    rw [InOrder, Stmt.listStatements, List.cons_append, List.pairwise_cons, List.pairwise_append]
    refine ⟨?_, Stmt.pairwise_nested s ⟨path, index⟩,
      Stmt.pairwise_listStatements rest path (index + 1), ?_⟩
    · intro entry hentry
      obtain hentry | hentry := List.mem_append.mp hentry
      · obtain ⟨sel, hunder⟩ := Stmt.under_of_mem_nested hentry
        exact precedes_of_under hunder
      · exact hlater entry hentry _ (.inl rfl)
    · intro entry hentry entry' hentry'
      exact hlater entry' hentry' _ (.inr (Stmt.under_of_mem_nested hentry))

theorem Stmt.pairwise_nested : ∀ (s : Stmt) (place : StmtPath), InOrder (s.nested place)
  | .compound block, place => Block.pairwise_statements block _
  | .cycle _ body _, place => Block.pairwise_statements body _
  | .doCycle body _ _, place => Block.pairwise_statements body _
  | .retry _ body _ _, place => Block.pairwise_statements body _
  | .included _ body _, place => Block.pairwise_statements body _
  | .tryCatch body _ handler _, place => by
    rw [InOrder, Stmt.nested, List.pairwise_append]
    refine ⟨Block.pairwise_statements body _, Block.pairwise_statements handler _, ?_⟩
    intro entry hentry entry' hentry'
    exact precedes_of_before (Block.mem_statements body _ hentry).under
      (Block.mem_statements handler _ hentry').under rfl
  | .condition branches otherwise _, place => by
    rw [InOrder, Stmt.nested, List.pairwise_append]
    refine ⟨Branch.pairwise_listStatements branches place 0,
      Block.pairwise_optionStatements otherwise _, ?_⟩
    intro entry hentry entry' hentry'
    obtain ⟨j, branch, -, hholds⟩ := Branch.mem_listStatements branches place 0 hentry
    obtain ⟨c, -, hholds'⟩ := Block.mem_optionStatements otherwise _ hentry'
    exact precedes_of_before hholds.under hholds'.under rfl
  | .assign .., _ | .const .., _ | .label .., _ | .goto .., _ | .gosub .., _ | .ret .., _
  | .exit .., _ | .error .., _ | .throw .., _ | .delay .., _ | .suspend .., _ | .status .., _
  | .declareWeb .., _ | .function .., _ | .call .., _ | .input .., _ | .comment .., _
  | .doc .., _ | .noop .., _ => List.Pairwise.nil

theorem Block.pairwise_optionStatements :
    ∀ (b : Option Block) (path : BlockPath), InOrder (Block.optionStatements path b)
  | some b, path => Block.pairwise_statements b path
  | none, _ => List.Pairwise.nil

theorem Branch.pairwise_listStatements :
    ∀ (branches : List Branch) (place : StmtPath) (index : Nat),
      InOrder (Branch.listStatements place index branches)
  | [], _, _ => List.Pairwise.nil
  | .mk test block :: rest, place, index => by
    rw [InOrder, Branch.listStatements, List.pairwise_append]
    refine ⟨Block.pairwise_statements block _,
      Branch.pairwise_listStatements rest place (index + 1), ?_⟩
    intro entry hentry entry' hentry'
    obtain ⟨j, branch, -, hholds⟩ := Branch.mem_listStatements rest place (index + 1) hentry'
    refine precedes_of_before (Block.mem_statements block _ hentry).under hholds.under ?_
    exact decide_eq_true (by omega)

end

/-- **A listing has exactly the statements of its unit.** With the order, this leaves only one list
that could be the listing. -/
theorem Block.mem_statements_iff {b : Block} {place : StmtPath} {s : Stmt} :
    (place, s) ∈ b.statements [] ↔ b.Lies place s := by
  rw [lies_iff]
  constructor
  · intro h
    obtain ⟨rest, hpath, hstmt⟩ := Block.mem_statements b [] h
    obtain rfl : place.block = rest := hpath
    exact hstmt
  · intro h
    obtain ⟨c, hc, hs⟩ := stmtAt?_eq_some.mp h
    exact Block.mem_statements_of_follow? [] hc hs

/-! ## Declarations of functions -/

/-- A function is declared in the text of a block, also in the bodies of other functions. The route
has the position of each declaration in the unit around it, from the outside in. -/
inductive Block.Declares : Block → List StmtPath → FunctionDecl → Prop where
  | here {b : Block} {place : StmtPath} {name : String} {params : List String} {body : Block}
      {line : Line}
      (h : b.Lies place (.function name params body line)) :
      Declares b [place] ⟨name, params, body, line⟩
  | inside {b : Block} {place : StmtPath} {name : String} {params : List String} {body : Block}
      {line : Line}
      {route : List StmtPath} {d : FunctionDecl}
      (h : b.Lies place (.function name params body line)) (hd : body.Declares route d) :
      Declares b (place :: route) d

/-- The one declaration comes before the other in the text, in particular before those in its
body. -/
def Earlier (route route' : List StmtPath) : Prop :=
  List.Lex Precedes route route'

/-- A list of all declarations in a block, in the order of the text. There is at most one such list,
since the order is asymmetric. -/
structure Block.Declarations (b : Block) (decls : List (List StmtPath × FunctionDecl)) : Prop where
  ordered : decls.Pairwise fun d d' => Earlier d.1 d'.1
  mem_iff : ∀ route d, (route, d) ∈ decls ↔ b.Declares route d

theorem Earlier.asymm {route route' : List StmtPath} (h : Earlier route route') :
    ¬ Earlier route' route := by
  intro h'
  induction h with
  | nil => cases h'
  | cons _ ih =>
    cases h' with
    | cons h' => exact ih h'
    | rel h' => exact Precedes.irrefl _ h'
  | rel h =>
    cases h' with
    | cons _ => exact Precedes.irrefl _ h
    | rel h' => exact h.asymm h'

theorem Block.Lies.eq {b : Block} {place : StmtPath} {s s' : Stmt} (h : b.Lies place s)
    (h' : b.Lies place s') :
    s = s' := by
  rw [lies_iff] at h h'
  exact Option.some.inj (h.symm.trans h')

theorem Block.Declares.ne_nil {b : Block} {route : List StmtPath} {d : FunctionDecl}
    (h : b.Declares route d) :
    route ≠ [] := by
  cases h <;> exact List.cons_ne_nil _ _

/-- A route leads to one declaration. With the next section this makes the listing of declarations
the only one there can be. -/
theorem Block.Declares.eq {b : Block} {route : List StmtPath} {d d' : FunctionDecl}
    (h : b.Declares route d) (h' : b.Declares route d') : d = d' := by
  induction h with
  | here hplace =>
    cases h' with
    | here hplace' =>
      cases hplace.eq hplace'
      rfl
    | inside _ hd => exact absurd rfl hd.ne_nil
  | inside hplace hd ih =>
    cases h' with
    | here _ => exact absurd rfl hd.ne_nil
    | inside hplace' hd' =>
      cases hplace.eq hplace'
      exact ih hd'

/-! ## The listing of functions

The linker lists functions without positions. The same listing with its routes is
`Block.declarations`, which is not by structural recursion: it goes from the listing of a unit into
the bodies of the functions in it, so it ends because those are smaller. -/

/-- The functions that a statement declares, those in its body included, but not what is nested in
it otherwise. -/
def Stmt.declared : Stmt → List FunctionDecl
  | .function name params body line => ⟨name, params, body, line⟩ :: body.functions
  | _ => []

-- the functions of a block are those of the statements that its listing has
mutual

theorem Block.functions_eq :
    ∀ (b : Block) (path : BlockPath), b.functions = (b.statements path).flatMap fun e =>
      e.2.declared
  | .mk body _ _, path => Stmt.listFunctions_eq body path 0

theorem Stmt.listFunctions_eq :
    ∀ (ss : List Stmt) (path : BlockPath) (index : Nat),
      Stmt.listFunctions ss = (Stmt.listStatements path index ss).flatMap fun e => e.2.declared
  | [], _, _ => rfl
  | s :: rest, path, index => by
    rw [Stmt.listFunctions, Stmt.listStatements, List.cons_append, List.flatMap_cons,
      List.flatMap_append, Stmt.functions_eq s ⟨path, index⟩,
      Stmt.listFunctions_eq rest path (index + 1), List.append_assoc]

theorem Stmt.functions_eq :
    ∀ (s : Stmt) (place : StmtPath),
      s.functions = s.declared ++ (s.nested place).flatMap fun e => e.2.declared
  | .function .., _ => (List.append_nil _).symm
  | .compound block, place => Block.functions_eq block _
  | .cycle _ body _, place => Block.functions_eq body _
  | .doCycle body _ _, place => Block.functions_eq body _
  | .retry _ body _ _, place => Block.functions_eq body _
  | .included _ body _, place => Block.functions_eq body _
  | .tryCatch body _ handler _, place => by
    rw [Stmt.functions, Stmt.nested, List.flatMap_append,
      Block.functions_eq body (place.child .body),
      Block.functions_eq handler (place.child .handler)]
    rfl
  | .condition branches otherwise _, place => by
    rw [Stmt.functions, Stmt.nested, List.flatMap_append, Branch.listFunctions_eq branches place 0,
      Block.optionFunctions_eq otherwise (place.child .otherwise)]
    rfl
  | .assign .., _ | .const .., _ | .label .., _ | .goto .., _ | .gosub .., _ | .ret .., _
  | .exit .., _ | .error .., _ | .throw .., _ | .delay .., _ | .suspend .., _ | .status .., _
  | .declareWeb .., _ | .call .., _ | .input .., _ | .comment .., _ | .doc .., _
  | .noop .., _ => rfl

theorem Block.optionFunctions_eq :
    ∀ (b : Option Block) (path : BlockPath),
      Block.optionFunctions b = (Block.optionStatements path b).flatMap fun e => e.2.declared
  | some b, path => Block.functions_eq b path
  | none, _ => rfl

theorem Branch.listFunctions_eq :
    ∀ (branches : List Branch) (place : StmtPath) (index : Nat),
      Branch.listFunctions branches = (Branch.listStatements place index branches).flatMap fun e =>
        e.2.declared
  | [], _, _ => rfl
  | .mk test block :: rest, place, index => by
    rw [Branch.listFunctions, Branch.listStatements, List.flatMap_append,
      Block.functions_eq block (place.child (.branch index)),
      Branch.listFunctions_eq rest place (index + 1)]

end

theorem Stmt.Encloses.sizeOf_lt {s : Stmt} {sel : BlockSel} {c : Block} (h : s.Encloses sel c) :
    sizeOf c < sizeOf s := by
  cases h with
  | @branch branches i branch hi otherwise line =>
    have hmem := List.sizeOf_lt_of_mem (List.mem_of_getElem? hi)
    obtain ⟨test, block⟩ := branch
    simp only [Branch.mk.sizeOf_spec, Stmt.condition.sizeOf_spec, Branch.block] at hmem ⊢
    omega
  | _ =>
    simp only [Stmt.compound.sizeOf_spec, Stmt.condition.sizeOf_spec, Stmt.cycle.sizeOf_spec,
      Stmt.doCycle.sizeOf_spec, Stmt.retry.sizeOf_spec, Stmt.tryCatch.sizeOf_spec,
      Stmt.included.sizeOf_spec, Option.some.sizeOf_spec]
    omega

theorem Block.Lies.sizeOf_lt {b : Block} {place : StmtPath} {s : Stmt} (h : b.Lies place s) :
    sizeOf s < sizeOf b := by
  induction h with
  | @here b index s hs =>
    have hmem := List.sizeOf_lt_of_mem (List.mem_of_getElem? hs)
    obtain ⟨body, line, endLine⟩ := b
    simp only [Block.body, Block.mk.sizeOf_spec] at hmem ⊢
    omega
  | @nested b c index outer sel path i s houter hc _ ih =>
    have hmem := List.sizeOf_lt_of_mem (List.mem_of_getElem? houter)
    have hsize := hc.sizeOf_lt
    obtain ⟨body, line, endLine⟩ := b
    simp only [Block.body, Block.mk.sizeOf_spec] at hmem ⊢
    omega

mutual

/-- The functions declared in a block with their routes, in the order in which they are listed. It
is only here to carry the routes along, and is the listing of the linker once they are dropped
(`Block.map_declarations`). -/
def Block.declarations (b : Block) : List (List StmtPath × FunctionDecl) :=
  (b.statements []).attach.flatMap fun e => Stmt.declarations e.1.1 e.1.2
termination_by sizeOf b
decreasing_by exact (Block.mem_statements_iff.mp e.2).sizeOf_lt

def Stmt.declarations (place : StmtPath) : Stmt → List (List StmtPath × FunctionDecl)
  | .function name params body line =>
    ([place], ⟨name, params, body, line⟩) :: body.declarations.map fun e => (place :: e.1, e.2)
  | _ => []
termination_by s => sizeOf s

end

theorem Block.declarations_eq (b : Block) :
    b.declarations = (b.statements []).flatMap fun e => Stmt.declarations e.1 e.2 := by
  rw [Block.declarations,
    List.flatMap_subtype (g := fun e => Stmt.declarations e.1 e.2) (fun _ _ => rfl),
    List.unattach_attach]

/-- What holds of a block once it holds of the bodies of the functions in its unit holds of every
block. This is the recursion of `Block.declarations`, kept apart from its compiled form. -/
theorem Block.function_induction {P : Block → Prop}
    (step : ∀ b : Block,
      (∀ place name params body line, b.Lies place (.function name params body line) →
        P body) → P b)
    (b : Block) : P b := by
  refine step b ?_
  intro place name params body line h
  have hsize : sizeOf body < sizeOf b := by
    have hstmt := h.sizeOf_lt
    rw [Stmt.function.sizeOf_spec] at hstmt
    omega
  exact Block.function_induction step body
termination_by sizeOf b
decreasing_by exact hsize

theorem Stmt.mem_declarations {place : StmtPath} {s : Stmt} {route : List StmtPath}
    {d : FunctionDecl} :
    (route, d) ∈ Stmt.declarations place s ↔
      ∃ name params body line, s = .function name params body line ∧
        (route = [place] ∧ d = ⟨name, params, body, line⟩ ∨
          ∃ rest, route = place :: rest ∧ (rest, d) ∈ body.declarations) := by
  cases s with
  | function name params body line =>
    rw [Stmt.declarations]
    constructor
    · intro h
      refine ⟨name, params, body, line, rfl, ?_⟩
      obtain heq | h := List.mem_cons.mp h
      · cases heq
        exact .inl ⟨rfl, rfl⟩
      · obtain ⟨⟨rest, d'⟩, hmem, heq⟩ := List.mem_map.mp h
        cases heq
        exact .inr ⟨rest, rfl, hmem⟩
    · rintro ⟨_, _, _, _, heq, h⟩
      cases heq
      obtain ⟨rfl, rfl⟩ | ⟨rest, rfl, hmem⟩ := h
      · exact List.mem_cons_self
      · exact List.mem_cons_of_mem _ (List.mem_map.mpr ⟨(rest, d), hmem, rfl⟩)
  | _ =>
    simp [Stmt.declarations]

/-- A declaration is listed with its route if and only if it is in the text. One way is by recursion
into bodies and the other by induction on how the declaration lies there. -/
theorem Block.mem_declarations {b : Block} {route : List StmtPath} {d : FunctionDecl} :
    (route, d) ∈ b.declarations ↔ b.Declares route d := by
  constructor
  · intro h
    induction b using Block.function_induction generalizing route with
    | step b ih =>
      rw [declarations_eq] at h
      obtain ⟨⟨place, s⟩, hlisted, hmem⟩ := List.mem_flatMap.mp h
      have hlies := mem_statements_iff.mp hlisted
      obtain ⟨name, params, body, line, rfl, hroute⟩ := Stmt.mem_declarations.mp hmem
      obtain ⟨rfl, rfl⟩ | ⟨rest, rfl, hinner⟩ := hroute
      · exact .here hlies
      · exact .inside hlies (ih _ _ _ _ _ hlies hinner)
  · intro h
    induction h with
    | here hlies =>
      rw [declarations_eq]
      exact List.mem_flatMap.mpr ⟨_, mem_statements_iff.mpr hlies,
        Stmt.mem_declarations.mpr ⟨_, _, _, _, rfl, .inl ⟨rfl, rfl⟩⟩⟩
    | inside hlies _ ih =>
      rw [declarations_eq]
      exact List.mem_flatMap.mpr ⟨_, mem_statements_iff.mpr hlies,
        Stmt.mem_declarations.mpr ⟨_, _, _, _, rfl, .inr ⟨_, rfl, ih⟩⟩⟩

/-- The routes come in order. Within the list for one function the first position is the same, and
between those of two functions the first position decides. -/
theorem Block.pairwise_declarations (b : Block) :
    b.declarations.Pairwise fun d d' => Earlier d.1 d'.1 := by
  induction b using Block.function_induction with
  | step b ih =>
    rw [declarations_eq, List.pairwise_flatMap]
    constructor
    · rintro ⟨place, s⟩ hlisted
      cases s with
      | function name params body line =>
        rw [Stmt.declarations, List.pairwise_cons, List.pairwise_map]
        constructor
        · rintro ⟨route, d⟩ hmem
          obtain ⟨⟨rest, d'⟩, hinner, heq⟩ := List.mem_map.mp hmem
          cases heq
          -- the declaration itself comes before one in its body
          obtain ⟨first, rest, rfl⟩ :=
            List.exists_cons_of_ne_nil (mem_declarations.mp hinner).ne_nil
          exact List.Lex.cons List.Lex.nil
        · exact (ih _ _ _ _ _ (mem_statements_iff.mp hlisted)).imp fun h => List.Lex.cons h
      | _ =>
        rw [Stmt.declarations]
        · exact List.Pairwise.nil
        · intro name params body line heq
          cases heq
    · refine (b.pairwise_statements []).imp ?_
      rintro ⟨place, s⟩ ⟨place', s'⟩ hprecedes ⟨route, d⟩ hmem ⟨route', d'⟩ hmem'
      obtain ⟨_, _, _, _, -, hroute⟩ := Stmt.mem_declarations.mp hmem
      obtain ⟨_, _, _, _, -, hroute'⟩ := Stmt.mem_declarations.mp hmem'
      obtain ⟨rest, rfl⟩ : ∃ rest, route = place :: rest := by
        obtain ⟨rfl, -⟩ | ⟨rest, rfl, -⟩ := hroute
        · exact ⟨[], rfl⟩
        · exact ⟨rest, rfl⟩
      obtain ⟨rest', rfl⟩ : ∃ rest', route' = place' :: rest' := by
        obtain ⟨rfl, -⟩ | ⟨rest', rfl, -⟩ := hroute'
        · exact ⟨[], rfl⟩
        · exact ⟨rest', rfl⟩
      exact List.Lex.rel hprecedes

/-- **The declarations in a block are listed in the order of the text.** All of them are, at
whatever depth, and nothing else is. -/
theorem Block.declarations_spec (b : Block) : b.Declarations b.declarations :=
  ⟨b.pairwise_declarations, fun _ _ => mem_declarations⟩

theorem Block.map_declarations (b : Block) : b.declarations.map (·.2) = b.functions := by
  induction b using Block.function_induction with
  | step b ih =>
    rw [declarations_eq, functions_eq b [], List.map_flatMap]
    rw [List.flatMap_def, List.flatMap_def]
    refine congrArg List.flatten (List.map_congr_left ?_)
    rintro ⟨place, s⟩ hlisted
    cases s with
    | function name params body line =>
      rw [Stmt.declarations, Stmt.declared, List.map_cons, List.map_map,
        ← ih _ _ _ _ _ (mem_statements_iff.mp hlisted)]
      rfl
    | _ => simp [Stmt.declarations, Stmt.declared]

end Stepwise
