import Stepwise.Proofs.Moves

/-!
# Where frames stand

A stack of frames is placed in a unit if it follows the nesting of the script: under the frame of a
block come the frame of the statement that the block belongs to, in the phase in which it runs this
block, and then the frame of the block around, which points behind that statement. `Surrounds` is
this for what lies under a block, and `Placed` for a whole stack.

Both are rules and not functions of the stack, so that a move of the machine is one or two rules
more or less. `Surrounds.stackAt` gives the stack back from its innermost position.

## Why a machine needs this

A frame holds positions: the path of a block, the place of a statement. It does not hold the block
or the statement, which are looked up in the program at every micro-step, and nothing in the type of
a stack says that they are there. That they are is what `Placed` says, and every rule of `Moves`
keeps it (`Moves.placed`). So the reasons for a defect that `Moves` lists are excluded one by one
(`Proofs/Safety`), and a position tells the whole stack but for counters and results, so that two
runs at one position have the same way to go (`Proofs/Canonical`).

`Proofs/Heights` and `Proofs/Work` measure placed stacks, and `Proofs/Nesting` and
`Proofs/ReplayLists` use what is shown here about the search for a handler.
-/

namespace Stepwise

namespace Frame

/-! ## Placed stacks -/

/-- What a frame says of a position: the counters of a retry and the results of calls do not belong
to it. -/
def shape (f : Frame) : FrameKind :=
  match f.kind with
  | .retry place phase _ _ => .retry place phase 0 0
  | kind => kind

/-- The shapes of the stack that stands at `next` in the block at `path`, as a jump builds it. A
jump is taken for comparison because it has nothing to go by but the position. -/
def stackAt (root : Block) (path : BlockPath) (next : Nat) : Option (List FrameKind) :=
  (descend root [] next [] path).map (List.map shape)

/-- `below` are the frames under that of the block `b`, which is at `path`. There are two rules for
a block of a statement, as some statements have a frame while they run and others have none. -/
inductive Surrounds (root : Block) : BlockPath → Block → List Frame → Prop where
  | root : Surrounds root [] root []
  /-- A block of a statement that has no frame while it runs. -/
  | inline {path : BlockPath} {b c : Block} {below : List Frame} {index : Nat} {stmt : Stmt}
      {sel : BlockSel} (outer : Surrounds root path b below) (hstmt : b.body[index]? = some stmt)
      (hc : stmt.block? sel = some c) (bare : around stmt ⟨path, index⟩ sel = [])
      (replay : List Value) :
      Surrounds root (StmtPath.child ⟨path, index⟩ sel) c
        (⟨.block path (index + 1), replay⟩ :: below)
  | framed {path : BlockPath} {b c : Block} {below : List Frame} {index : Nat} {stmt : Stmt}
      {sel : BlockSel} {f : Frame} (outer : Surrounds root path b below)
      (hstmt : b.body[index]? = some stmt) (hc : stmt.block? sel = some c)
      (frame : (around stmt ⟨path, index⟩ sel).map shape = [f.shape]) (replay : List Value) :
      Surrounds root (StmtPath.child ⟨path, index⟩ sel) c
        (f :: ⟨.block path (index + 1), replay⟩ :: below)

/-- A stack that follows the nesting of the script. In front is the frame of a block, or that of a
statement at its header; what lies below is the same in both cases. -/
inductive Placed (root : Block) : List Frame → Prop where
  /-- The unit ran off its end. -/
  | ended : Placed root []
  | block {path : BlockPath} {b : Block} {below : List Frame} (inside : Surrounds root path b below)
      (next : Nat) (replay : List Value) : Placed root (⟨.block path next, replay⟩ :: below)
  | statement {path : BlockPath} {b : Block} {below : List Frame} {index : Nat} {stmt : Stmt}
      {kind : FrameKind} (inside : Surrounds root path b below) (hstmt : b.body[index]? = some stmt)
      (runs : kind.Runs stmt) (hplace : kind.place? = some ⟨path, index⟩)
      (replay replay' : List Value) :
      Placed root (⟨kind, replay⟩ :: ⟨.block path (index + 1), replay'⟩ :: below)

variable {root : Block}

/-! ## Frames of statements

A statement has a frame while it runs, and the frame is of its kind. Where a header or a handler
starts a block, the frame it leaves is the one that `around` gives for this block. -/

theorem around_cases (stmt : Stmt) (place : StmtPath) (sel : BlockSel) :
    around stmt place sel = [] ∨ ∃ f, around stmt place sel = [f] := by
  unfold around
  split
  case h_7 => exact .inl rfl
  all_goals exact .inr ⟨_, rfl⟩

theorem runs_of_around {stmt : Stmt} {place : StmtPath} {sel : BlockSel} {f : Frame}
    (h : (around stmt place sel).map shape = [f.shape]) :
    f.kind.Runs stmt ∧ f.kind.place? = some place := by
  obtain ⟨kind, replay⟩ := f
  cases stmt with
  | condition branches otherwise line =>
    cases kind <;> cases h
    exact ⟨.condition .., rfl⟩
  | cycle test body line =>
    cases kind <;> cases h
    exact ⟨.cycle .., rfl⟩
  | doCycle body test line =>
    cases kind <;> cases h
    exact ⟨.doCycle .., rfl⟩
  | retry attempts body test line =>
    cases kind <;> cases h
    exact ⟨.retry .., rfl⟩
  | tryCatch body catchVar handler line =>
    cases sel <;> cases kind <;> cases h <;> exact ⟨.tryCatch .., rfl⟩
  | _ => cases h

/-- A header that starts a block leaves the frame that belongs around this block. So it does not
matter to a stack whether a block was started by its header or jumped into. -/
theorem shape_of_starts {kind kind' : FrameKind} {stmt : Stmt} {place : StmtPath} {sel : BlockSel}
    (runs : kind.Runs stmt) (starts : kind.Starts place sel kind') :
    (around stmt place sel).map shape = [(Frame.new kind').shape] := by
  cases starts <;> cases runs <;> rfl

theorem place?_of_handler? {f : Frame} {h : Handler} (hh : f.handler? = some h) :
    ∃ place, f.kind.place? = some place := by
  obtain ⟨kind, replay⟩ := f
  cases kind with
  | block path next => cases hh
  | _ => exact ⟨_, rfl⟩

/-- A handler starts with a block of its statement, and the frame that belongs around it. For a
retry this is its body again, with the next attempt. -/
theorem shape_of_handler {f : Frame} {stmt : Stmt} {place : StmtPath} {h : Handler}
    (runs : f.kind.Runs stmt) (hplace : f.kind.place? = some place) (hh : f.handler? = some h) :
    ∃ sel c g, stmt.block? sel = some c ∧ h.frames = [Frame.block (place.child sel) 0, g] ∧
      (around stmt place sel).map shape = [g.shape] := by
  obtain ⟨kind, replay⟩ := f
  cases runs with
  | tryCatch place phase body catchVar handler line =>
    cases hplace
    cases phase with
    | handler => cases hh
    | body =>
      cases hh
      exact ⟨.handler, handler, _, rfl, rfl, rfl⟩
  | retry place phase attempt max attempts body test line =>
    cases hplace
    cases phase with
    | enter => cases hh
    | test => cases hh
    | body =>
      simp only [handler?] at hh
      split at hh
      · cases hh
        exact ⟨.body, body, _, rfl, rfl, rfl⟩
      · cases hh
  | condition => cases hh
  | cycle => cases hh
  | doCycle => cases hh

/-! ## Stacks and positions -/

theorem Surrounds.follow? {path : BlockPath} {b : Block} {below : List Frame}
    (h : Surrounds root path b below) : root.follow? path = some b := by
  induction h with
  | root => rfl
  | inline _ hstmt hc _ _ ih => exact Block.follow?_child ih hstmt hc
  | framed _ hstmt hc _ _ ih => exact Block.follow?_child ih hstmt hc

theorem descend_cons {b child : Block} {index : Nat} {sel : BlockSel} {stmt : Stmt}
    (hstmt : b.body[index]? = some stmt) (hchild : stmt.block? sel = some child) (path : BlockPath)
    (next : Nat) (below : List Frame) (rest : BlockPath) :
    descend b path next below ((index, sel) :: rest) =
      descend child (path ++ [(index, sel)]) next
        (around stmt ⟨path, index⟩ sel ++ block path (index + 1) :: below) rest := by
  simp only [descend, hstmt, hchild]

/-- Going one block deeper puts the frame of the statement on the stack that points behind it.
`descend` goes from the root inwards and `Surrounds` has its last rule innermost, so this is where
the two directions meet. -/
theorem descend_child {b c d : Block} {rest : BlockPath} {index : Nat} {stmt : Stmt}
    {sel : BlockSel} (hc : b.follow? rest = some c) (hstmt : c.body[index]? = some stmt)
    (hd : stmt.block? sel = some d) (path : BlockPath) (next : Nat) (below : List Frame) :
    descend b path next below (rest ++ [(index, sel)]) =
      (descend b path (index + 1) below rest).map fun frames =>
        block (path ++ rest ++ [(index, sel)]) next ::
          (around stmt ⟨path ++ rest, index⟩ sel ++ frames) := by
  induction rest generalizing b path below with
  | nil =>
    cases hc
    simp only [List.nil_append, descend, hstmt, hd, Option.map_some, List.append_nil]
  | cons turn rest ih =>
    obtain ⟨i, s⟩ := turn
    obtain ⟨outer, child, hi, hs, hc⟩ := Block.follow?_cons_eq_some.mp hc
    have hturn : path ++ (i, s) :: rest = path ++ [(i, s)] ++ rest := by
      rw [List.append_assoc, List.singleton_append]
    rw [List.cons_append, descend_cons hi hs, descend_cons hi hs, ih hc, hturn]

theorem descend_of_follow? {b c : Block} {rest : BlockPath} (h : b.follow? rest = some c)
    (path : BlockPath) (next : Nat) (below : List Frame) :
    ∃ frames, descend b path next below rest = some frames := by
  induction rest generalizing b path below with
  | nil => exact ⟨_, rfl⟩
  | cons turn rest ih =>
    obtain ⟨index, sel⟩ := turn
    obtain ⟨stmt, child, hstmt, hchild, h⟩ := Block.follow?_cons_eq_some.mp h
    rw [descend_cons hstmt hchild]
    exact ih h _ _

theorem follow?_of_descend {b : Block} {path rest : BlockPath} {next : Nat}
    {below frames : List Frame} (h : descend b path next below rest = some frames) :
    ∃ c, b.follow? rest = some c := by
  induction rest generalizing b path below with
  | nil => exact ⟨b, rfl⟩
  | cons turn rest ih =>
    obtain ⟨index, sel⟩ := turn
    rw [descend] at h
    split at h
    · cases h
    · rename_i stmt hstmt
      split at h
      · cases h
      · rename_i child hchild
        obtain ⟨c, hc⟩ := ih h
        exact ⟨c, Block.follow?_cons_eq_some.mpr ⟨stmt, child, hstmt, hchild, hc⟩⟩

/-- The frames under a block are those that a jump into the block builds. The replay lists may
differ, and so may the counters of a retry. -/
theorem Surrounds.stackAt {path : BlockPath} {b : Block} {below : List Frame}
    (h : Surrounds root path b below) (next : Nat) :
    stackAt root path next = some (.block path next :: below.map shape) := by
  induction h generalizing next with
  | root => rfl
  | @inline path b c below index stmt sel outer hstmt hc bare replay ih =>
    -- the stack around is the one that points behind the statement
    have hbelow := ih (index + 1)
    unfold Frame.stackAt at hbelow ⊢
    rw [StmtPath.child, descend_child outer.follow? hstmt hc]
    obtain ⟨frames, hframes, hshapes⟩ := Option.map_eq_some_iff.mp hbelow
    simp only [hframes, List.nil_append, bare, Option.map_some, List.map_cons, hshapes]
    rfl
  | @framed path b c below index stmt sel f outer hstmt hc frame replay ih =>
    have hbelow := ih (index + 1)
    unfold Frame.stackAt at hbelow ⊢
    rw [StmtPath.child, descend_child outer.follow? hstmt hc]
    obtain ⟨frames, hframes, hshapes⟩ := Option.map_eq_some_iff.mp hbelow
    simp only [hframes, List.nil_append, Option.map_some, List.map_cons, List.map_append, frame,
      hshapes]
    rfl

/-- A descent ends in a placed stack. It is shown for a descent that has already gone some way, as
this is what the recursion needs. -/
theorem placed_of_descend {path rest : BlockPath} {b : Block} {below frames : List Frame}
    {next : Nat} (inside : Surrounds root path b below)
    (h : descend b path next below rest = some frames) :
    Placed root frames ∧ frames ≠ [] := by
  induction rest generalizing path b below with
  | nil =>
    cases h
    exact ⟨.block inside next [], nofun⟩
  | cons turn rest ih =>
    obtain ⟨index, sel⟩ := turn
    obtain ⟨c, hc⟩ := follow?_of_descend h
    obtain ⟨stmt, child, hstmt, hchild, -⟩ := Block.follow?_cons_eq_some.mp hc
    rw [descend_cons hstmt hchild] at h
    refine ih ?_ h
    obtain haround | ⟨f, haround⟩ := around_cases stmt ⟨path, index⟩ sel
    · rw [haround]
      exact .inline inside hstmt hchild haround []
    · rw [haround]
      exact .framed inside hstmt hchild (by rw [haround]; rfl) []

theorem placed_of_resume {target : StmtPath} {frames : List Frame}
    (h : resume root target = some frames) : Placed root frames ∧ frames ≠ [] :=
  placed_of_descend .root h

/-! ## What running does to a stack -/

variable {p : Program} {u : CodeUnit}

theorem Surrounds.block? (hroot : p.unitRoot? u = some root) {path : BlockPath} {b : Block}
    {below : List Frame} (h : Surrounds root path b below) : p.block? u path = some b := by
  rw [Program.block?, hroot]
  exact h.follow?

theorem Surrounds.stmt? (hroot : p.unitRoot? u = some root) {path : BlockPath} {b : Block}
    {below : List Frame} (h : Surrounds root path b below) (index : Nat) :
    p.stmt? u ⟨path, index⟩ = b.body[index]? :=
  Program.stmt?_of_block? (h.block? hroot) index

namespace Placed

/-- Under the innermost frame stands a stack that is placed itself. Leaving a block or a statement
is only this. -/
theorem tail {f : Frame} {below : List Frame} (h : Placed root (f :: below)) :
    Placed root below := by
  cases h with
  | statement inside _ _ _ _ replay' => exact .block inside _ replay'
  | block inside _ _ =>
    cases inside with
    | root => exact .ended
    | inline outer _ _ _ replay => exact .block outer _ replay
    | framed outer hstmt _ frame replay =>
      obtain ⟨runs, hplace⟩ := runs_of_around frame
      exact .statement outer hstmt runs hplace _ replay

theorem suffix {above stack : List Frame} (h : Placed root (above ++ stack)) :
    Placed root stack := by
  induction above with
  | nil => exact h
  | cons f above ih => exact ih h.tail

theorem replay {kind : FrameKind} {replay : List Value} {below : List Frame}
    (h : Placed root (⟨kind, replay⟩ :: below)) (replay' : List Value) :
    Placed root (⟨kind, replay'⟩ :: below) := by
  cases h with
  | block inside next _ => exact .block inside next replay'
  | statement inside hstmt runs hplace _ older =>
    exact .statement inside hstmt runs hplace replay' older

/-- A block is placed wherever it stands: its frame may point behind its end, as it does when all of
its statements are done. -/
theorem next {path : BlockPath} {next : Nat} {replay : List Value} {below : List Frame}
    (h : Placed root (⟨.block path next, replay⟩ :: below)) (next' : Nat)
    (replay' : List Value) :
    Placed root (⟨.block path next', replay'⟩ :: below) := by
  cases h with
  | block inside _ _ => exact .block inside next' replay'
  | statement _ _ _ hplace _ _ => cases hplace

/-- The frame of a statement, from its kind. Under it is the frame of the block around, which points
behind the statement. -/
theorem at_place {kind : FrameKind} {place : StmtPath} {replay : List Value} {below : List Frame}
    (h : Placed root (⟨kind, replay⟩ :: below)) (hplace : kind.place? = some place) :
    ∃ b stmt under replay', Surrounds root place.block b under ∧
      b.body[place.index]? = some stmt ∧ kind.Runs stmt ∧
      below = ⟨.block place.block (place.index + 1), replay'⟩ :: under := by
  cases h with
  | block _ _ _ => cases hplace
  | statement inside hstmt runs hplace' _ replay' =>
    rw [hplace'] at hplace
    cases hplace
    exact ⟨_, _, _, replay', inside, hstmt, runs, rfl⟩

theorem runs {kind : FrameKind} {place : StmtPath} {replay : List Value} {below : List Frame}
    (h : Placed root (⟨kind, replay⟩ :: below)) (hroot : p.unitRoot? u = some root)
    (hplace : kind.place? = some place) :
    ∃ stmt, p.stmt? u place = some stmt ∧ kind.Runs stmt := by
  obtain ⟨b, stmt, under, replay', inside, hstmt, runs, -⟩ := h.at_place hplace
  exact ⟨stmt, (inside.stmt? hroot place.index).trans hstmt, runs⟩

/-- Entering a statement puts its first frames on the stack, by the kind of the statement: a block,
or the frame of a header, or both. -/
theorem enter {path : BlockPath} {b : Block} {below : List Frame} {index : Nat} {stmt : Stmt}
    (inside : Surrounds root path b below) (hstmt : b.body[index]? = some stmt)
    (replay : List Value) :
    Placed root
      (Frame.enter stmt ⟨path, index⟩ ++ ⟨.block path (index + 1), replay⟩ :: below) := by
  cases stmt with
  | compound block => exact .block (.inline inside hstmt rfl rfl replay) 0 []
  | included source body line => exact .block (.inline inside hstmt rfl rfl replay) 0 []
  | condition branches otherwise line =>
    exact .statement inside hstmt (.condition ..) rfl [] replay
  | cycle test body line => exact .statement inside hstmt (.cycle ..) rfl [] replay
  | doCycle body test line => exact .block (.framed inside hstmt rfl rfl replay) 0 []
  | retry attempts body test line => exact .statement inside hstmt (.retry ..) rfl [] replay
  | tryCatch body catchVar handler line =>
    exact .block (.framed inside hstmt rfl rfl replay) 0 []
  -- a simple statement has no frames, and its block has gone on
  | _ => exact .block inside (index + 1) replay

theorem handler {f : Frame} {below : List Frame} {h : Handler} (placed : Placed root (f :: below))
    (hh : f.handler? = some h) : Placed root (h.frames ++ below) := by
  obtain ⟨place, hplace⟩ := place?_of_handler? hh
  obtain ⟨b, stmt, under, replay', inside, hstmt, runs, rfl⟩ := placed.at_place hplace
  obtain ⟨sel, c, g, hc, hframes, hshape⟩ := shape_of_handler runs hplace hh
  rw [hframes]
  exact .block (.framed inside hstmt hc hshape replay') 0 []

/-- Every shift keeps a stack placed. One case for each rule, and each is one of the lemmas
above. -/
theorem shift (hroot : p.unitRoot? u = some root) {frames frames' : List Frame}
    (shifts : Shift p u frames frames') (h : Placed root frames) : Placed root frames' := by
  cases shifts with
  | hold kind _ replay' below => exact h.replay replay'
  | pass _ _ _ replay' below => exact h.next _ replay'
  | leave f below => exact h.tail
  | enter hstmt _ replay below =>
    cases h with
    | statement _ _ _ hplace _ _ => cases hplace
    | block inside _ _ =>
      rw [inside.stmt? hroot] at hstmt
      exact .enter inside hstmt replay
  | @start place stmt sel b kind kind' hstmt hb starts replay below =>
    have hplace : kind.place? = some place := by
      cases starts <;> rfl
    obtain ⟨outer, stmt', under, replay', inside, hstmt', runs, rfl⟩ := h.at_place hplace
    -- the statement that the header belongs to is the one that its place leads to
    rw [inside.stmt? hroot, hstmt'] at hstmt
    cases hstmt
    exact .block (.framed inside hstmt' hb (shape_of_starts runs starts) replay') 0 []
  | @turn kind kind' turns replay below =>
    cases h with
    | block _ _ _ => cases turns
    | @statement path b below index stmt _ inside hstmt runs hplace _ replay' =>
      have hplace' : kind'.place? = kind.place? := by
        cases turns <;> rfl
      have runs' : kind'.Runs stmt := by
        cases turns <;> cases runs <;> constructor
      exact .statement inside hstmt runs' (hplace'.trans hplace) replay replay'

end Placed

/-! ## The search for a handler -/

/-- A handler that is found is that of a frame, and what stays is below it. The frames above are
given up, whether they could take a fault or not. -/
theorem findHandler_some {stack below : List Frame} {h : Handler}
    (hfind : findHandler stack = some (h, below)) :
    ∃ above f, stack = above ++ f :: below ∧ f.handler? = some h := by
  induction stack with
  | nil => cases hfind
  | cons f stack ih =>
    simp only [findHandler] at hfind
    cases hf : f.handler? with
    | some h' =>
      rw [hf] at hfind
      cases hfind
      exact ⟨[], f, rfl, hf⟩
    | none =>
      rw [hf] at hfind
      obtain ⟨above, g, rfl, hg⟩ := ih hfind
      exact ⟨f :: above, g, rfl, hg⟩

theorem findInStacks_some {pile older : List (List Frame)} {below : List Frame} {h : Handler}
    (hfind : findInStacks pile = some (h, below, older)) :
    ∃ newer above f, pile = newer ++ (above ++ f :: below) :: older ∧ f.handler? = some h := by
  induction pile with
  | nil => cases hfind
  | cons stack pile ih =>
    simp only [findInStacks] at hfind
    cases hstack : findHandler stack with
    | some found =>
      rw [hstack] at hfind
      cases hfind
      obtain ⟨above, f, rfl, hf⟩ := findHandler_some hstack
      exact ⟨[], above, f, rfl, hf⟩
    | none =>
      rw [hstack] at hfind
      obtain ⟨newer, above, f, rfl, hf⟩ := ih hfind
      exact ⟨stack :: newer, above, f, rfl, hf⟩

end Frame

/-- What catches a fault is a frame of some stack of an activation; what is under it stays. This is
all that proofs need to know about the search, and none of them follows it again. -/
theorem Machine.findCaught_ok {scope : Scope} {acts : List Activation} {c : Caught}
    (hfind : findCaught scope acts = .ok c) :
    ∃ inner act newer above f, acts = inner ++ act :: c.callers ∧
      act.frames :: act.subroutines =
        newer ++ (above ++ f :: c.activation.frames) :: c.activation.subroutines ∧
      f.handler? = some c.handler ∧ c.activation.unit = act.unit ∧
        c.activation.saved = act.saved := by
  induction acts generalizing scope with
  | nil => cases hfind
  | cons act callers ih =>
    simp only [findCaught] at hfind
    cases hstacks : Frame.findInStacks (act.frames :: act.subroutines) with
    | some found =>
      rw [hstacks] at hfind
      cases hfind
      obtain ⟨newer, above, f, heq, hf⟩ := Frame.findInStacks_some hstacks
      exact ⟨[], act, newer, above, f, rfl, heq, hf, rfl, rfl⟩
    | none =>
      rw [hstacks] at hfind
      dsimp only at hfind
      cases hunit : act.unit with
      | main => rw [hunit] at hfind; cases hfind
      | function name =>
        rw [hunit] at hfind
        obtain ⟨inner, act', newer, above, f, rfl, rest⟩ := ih hfind
        exact ⟨act :: inner, act', newer, above, f, rfl, rest⟩

namespace Activation

variable {p : Program}

/-! ## Placed machines -/

/-- The stacks of an activation are placed in its unit. Only the current one can be at its end. -/
structure PlacedIn (p : Program) (root : Block) (act : Activation) : Prop where
  unit : p.unitRoot? act.unit = some root
  frames : Frame.Placed root act.frames
  subroutines : ∀ stack ∈ act.subroutines, Frame.Placed root stack ∧ stack ≠ []

theorem PlacedIn.of_stacks {root : Block} {act : Activation} {newer subroutines : List (List Frame)}
    {above frames : List Frame} (h : act.PlacedIn p root)
    (hstacks : act.frames :: act.subroutines = newer ++ (above ++ frames) :: subroutines) :
    Frame.Placed root frames := by
  have hmem : above ++ frames ∈ act.frames :: act.subroutines := by simp [hstacks]
  obtain hfront | hmem := List.mem_cons.mp hmem
  · exact (hfront ▸ h.frames).suffix
  · exact (h.subroutines _ hmem).1.suffix

def Placed (p : Program) (act : Activation) : Prop := ∃ root, act.PlacedIn p root

/-- All activations are placed, and only the innermost can be at its end. A unit that waits has
called a function, and it was a statement or a header that did. -/
structure AllPlaced (p : Program) (acts : List Activation) : Prop where
  placed : ∀ act ∈ acts, act.Placed p
  waiting : ∀ act ∈ acts.tail, act.frames ≠ []

namespace AllPlaced

theorem nil : AllPlaced p [] := ⟨nofun, nofun⟩

theorem cons_iff {act : Activation} {callers : List Activation} :
    AllPlaced p (act :: callers) ↔
      act.Placed p ∧ ∀ caller ∈ callers, caller.Placed p ∧ caller.frames ≠ [] := by
  constructor
  · rintro ⟨placed, waiting⟩
    refine ⟨placed act List.mem_cons_self, fun caller hmem => ⟨?_, waiting caller hmem⟩⟩
    exact placed caller (List.mem_cons_of_mem _ hmem)
  · rintro ⟨hact, hcallers⟩
    refine ⟨fun a hmem => ?_, fun caller hmem => (hcallers caller hmem).2⟩
    obtain rfl | hmem := List.mem_cons.mp hmem
    · exact hact
    · exact (hcallers a hmem).1

theorem tail {act : Activation} {callers : List Activation} (h : AllPlaced p (act :: callers)) :
    AllPlaced p callers := by
  obtain ⟨_, hcallers⟩ := cons_iff.mp h
  refine ⟨fun caller hmem => (hcallers caller hmem).1,
    fun caller hmem => (hcallers caller ?_).2⟩
  exact List.mem_of_mem_tail hmem

theorem suffix {inner acts : List Activation} (h : AllPlaced p (inner ++ acts)) :
    AllPlaced p acts := by
  induction inner with
  | nil => exact h
  | cons act inner ih => exact ih h.tail

theorem mapFrame {acts : List Activation} (h : AllPlaced p acts) {f : Frame → Frame}
    (hf : ∀ frame, (f frame).kind = frame.kind) : AllPlaced p (Activation.mapFrame f acts) := by
  cases acts with
  | nil => exact nil
  | cons act callers =>
    obtain ⟨u, frames, subroutines, saved⟩ := act
    cases frames with
    | nil => exact h
    | cons frame below =>
      obtain ⟨⟨root, hact⟩, hcallers⟩ := cons_iff.mp h
      refine cons_iff.mpr ⟨⟨root, hact.unit, ?_, hact.subroutines⟩, hcallers⟩
      have hframe : f frame = ⟨frame.kind, (f frame).replay⟩ := by rw [← hf]
      show Frame.Placed root (f frame :: below)
      rw [hframe]
      exact hact.frames.replay _

end AllPlaced

theorem placed_new {u : CodeUnit} {root : Block} (hroot : p.unitRoot? u = some root)
    (saved : List (String × Option Value)) : (Activation.new u saved).Placed p :=
  ⟨root, hroot, .block .root 0 [], nofun⟩

end Activation

namespace Machine

variable {σ : Type} {env : Setting σ}

open Activation

/-- What catches a fault is a placed frame, and what is under it stays placed. The activations under
the one that catches it are as they were. -/
theorem caught_frame {p : Program} {scope : Scope} {acts : List Activation} {c : Caught}
    (found : findCaught scope acts = .ok c) (h : AllPlaced p acts) :
    ∃ root f, p.unitRoot? c.activation.unit = some root ∧ f.handler? = some c.handler ∧
      Frame.Placed root (f :: c.activation.frames) ∧
      (∀ stack ∈ c.activation.subroutines, Frame.Placed root stack ∧ stack ≠ []) ∧
      ∀ caller ∈ c.callers, caller.Placed p ∧ caller.frames ≠ [] := by
  obtain ⟨inner, act, newer, above, f, rfl, hstacks, hhandler, hunit, -⟩ := findCaught_ok found
  obtain ⟨⟨root, hact⟩, hcallers⟩ := AllPlaced.cons_iff.mp h.suffix
  have hf := hact.of_stacks hstacks
  -- what is left of the stacks put aside was put aside before, also if the handler is in one of
  -- them
  have holder : ∀ stack ∈ c.activation.subroutines, stack ∈ act.subroutines := by
    intro stack hmem
    cases newer with
    | nil =>
      obtain ⟨-, hsubs⟩ := List.cons.inj hstacks
      rw [hsubs]
      exact hmem
    | cons first newer =>
      obtain ⟨-, hsubs⟩ := List.cons.inj hstacks
      rw [hsubs]
      exact List.mem_append_right _ (List.mem_cons_of_mem _ hmem)
  refine ⟨root, f, ?_, hhandler, hf, fun stack hmem => ?_, hcallers⟩
  · rw [hunit]
    exact hact.unit
  · exact hact.subroutines stack (holder stack hmem)

theorem placed_caught {scope : Scope} {acts : List Activation} {c : Caught}
    (found : findCaught scope acts = .ok c) (h : AllPlaced env.program acts) :
    AllPlaced env.program
      ({ c.activation with frames := c.handler.frames ++ c.activation.frames } :: c.callers) := by
  obtain ⟨root, f, hroot, hhandler, hf, hsubs, hcallers⟩ := caught_frame found h
  exact AllPlaced.cons_iff.mpr ⟨⟨root, hroot, hf.handler hhandler, hsubs⟩, hcallers⟩

/-- What a micro-step moves stays placed. The units that a rule does not name are as before; a unit
that is new starts at its first statement. -/
theorem Moves.placed {acts acts' : List Activation} (moves : Moves env acts acts')
    (h : AllPlaced env.program acts) : AllPlaced env.program acts' := by
  cases moves with
  | stay => exact h
  | clear => exact .nil
  | caught found => exact placed_caught found h
  | shift shifts subroutines saved callers =>
    obtain ⟨⟨root, hact⟩, hcallers⟩ := AllPlaced.cons_iff.mp h
    have hframes := hact.frames.shift hact.unit shifts
    exact AllPlaced.cons_iff.mpr ⟨⟨root, hact.unit, hframes, hact.subroutines⟩, hcallers⟩
  | @call name d callers known _ u kind replay replay' below subroutines saved shadowed =>
    obtain ⟨⟨root, hact⟩, hcallers⟩ := AllPlaced.cons_iff.mp h
    have hroot : env.program.unitRoot? (.function name) = some d.body := by
      rw [Program.unitRoot?, known]
      rfl
    refine AllPlaced.cons_iff.mpr ⟨placed_new hroot shadowed, fun caller hmem => ?_⟩
    obtain rfl | hmem := List.mem_cons.mp hmem
    · exact ⟨⟨root, hact.unit, hact.frames.replay replay', hact.subroutines⟩, nofun⟩
    · exact hcallers caller hmem
  | back _ saved callers value =>
    exact h.tail.mapFrame fun _ => rfl
  -- the frames of a jump are built from the position of the label, in the same unit
  | jump _ hroot resumes before subroutines saved callers =>
    obtain ⟨⟨root, hact⟩, hcallers⟩ := AllPlaced.cons_iff.mp h
    obtain rfl := Option.some.inj (hact.unit.symm.trans hroot)
    have hframes := (Frame.placed_of_resume resumes).1
    exact AllPlaced.cons_iff.mpr ⟨⟨root, hroot, hframes, hact.subroutines⟩, hcallers⟩
  | gosub _ _ hroot resumes path next replay replay' below saved callers =>
    obtain ⟨⟨root, hact⟩, hcallers⟩ := AllPlaced.cons_iff.mp h
    obtain rfl := Option.some.inj (hact.unit.symm.trans hroot)
    have hframes := (Frame.placed_of_resume resumes).1
    refine AllPlaced.cons_iff.mpr ⟨⟨root, hroot, hframes, fun stack hmem => ?_⟩, hcallers⟩
    obtain rfl | hmem := List.mem_cons.mp hmem
    · exact ⟨hact.frames.next (next + 1) replay', nofun⟩
    · exact hact.subroutines stack hmem
  | ret u frames caller subroutines saved callers =>
    obtain ⟨⟨root, hact⟩, hcallers⟩ := AllPlaced.cons_iff.mp h
    have hcaller := hact.subroutines caller List.mem_cons_self
    refine AllPlaced.cons_iff.mpr
      ⟨⟨root, hact.unit, hcaller.1, fun stack hmem => ?_⟩, hcallers⟩
    exact hact.subroutines stack (List.mem_cons_of_mem _ hmem)

end Machine

end Stepwise
