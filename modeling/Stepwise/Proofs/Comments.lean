import Stepwise.Proofs.Linking
import Stepwise.Session

/-!
# Comments have no meaning

Linking filters comments, fills in closing lines and decodes literals in one walk. The walk forgets
the comments before it computes anything from a block (`Block.linked_stripped`), so **scripts that
are the same without their comments are the same program**: tables, version, warnings and every run.

What is filtered matters in one place. A block without a closing line gets that of its last
statement, and if comments counted, a note at the end of a block would move the line that a debugger
shows for it. The statement that comments do not matter therefore is not about runs only.

`stripped` deletes comments at every depth and does nothing else, and that it deletes all of them is
proved rather than read off (`Block.not_comment_of_encloses`), since otherwise the main statement
could hold for want of anything deleted.

A second walk finds nothing left to do where no literal holds a backslash: comments are gone, and a
closing line that was filled in is the one that would be filled in again (`Block.linked_linked`).
With a backslash in a literal this is false, and has to be: `\\n` decodes to `\n`, which would be
decoded once more.
-/

namespace Stepwise

/-! ## Without comments -/

mutual

/-- The statement with the comments deleted from its blocks. The statement itself stays, also if it
is a comment: whoever has it in a list decides about that. -/
def Stmt.stripped : Stmt → Stmt
  | .compound block => .compound block.stripped
  | .condition branches otherwise line =>
    .condition (Branch.listStripped branches) (Block.optionStripped otherwise) line
  | .cycle test body line => .cycle test body.stripped line
  | .doCycle body test line => .doCycle body.stripped test line
  | .retry attempts body test line => .retry attempts body.stripped test line
  | .tryCatch body catchVar handler line => .tryCatch body.stripped catchVar handler.stripped line
  | .function name params body line => .function name params body.stripped line
  | .included source body line => .included source body.stripped line
  | s => s

/-- The statements that are not comments. -/
def Stmt.listStripped : List Stmt → List Stmt
  | [] => []
  | s :: rest =>
    if s.isComment then Stmt.listStripped rest else s.stripped :: Stmt.listStripped rest

/-- The block with the comments deleted at every depth. Lines stay as they are. -/
def Block.stripped : Block → Block
  | .mk body line endLine => .mk (Stmt.listStripped body) line endLine

def Block.optionStripped : Option Block → Option Block
  | some b => some b.stripped
  | none => none

def Branch.stripped : Branch → Branch
  | .mk test block => .mk test block.stripped

def Branch.listStripped : List Branch → List Branch
  | [] => []
  | b :: rest => b.stripped :: Branch.listStripped rest

end

theorem Stmt.isComment_stripped (s : Stmt) : s.stripped.isComment = s.isComment := by
  cases s <;> rfl

mutual

/-- **Linking does not see comments.** By recursion over the tree; all that happens is in the list
of statements, where a comment is dropped on both sides. -/
theorem Stmt.linked_stripped : ∀ s : Stmt, s.stripped.linked = s.linked
  | .compound block => by
    simp only [Stmt.stripped, Stmt.linked, Block.linked_stripped block]
  | .condition branches otherwise line => by
    simp only [Stmt.stripped, Stmt.linked, Branch.listLinked_stripped branches,
      Block.optionLinked_stripped otherwise]
  | .cycle test body line => by
    simp only [Stmt.stripped, Stmt.linked, Block.linked_stripped body]
  | .doCycle body test line => by
    simp only [Stmt.stripped, Stmt.linked, Block.linked_stripped body]
  | .retry attempts body test line => by
    simp only [Stmt.stripped, Stmt.linked, Block.linked_stripped body]
  | .tryCatch body catchVar handler line => by
    simp only [Stmt.stripped, Stmt.linked, Block.linked_stripped body,
      Block.linked_stripped handler]
  | .function name params body line => by
    simp only [Stmt.stripped, Stmt.linked, Block.linked_stripped body]
  | .included source body line => by
    simp only [Stmt.stripped, Stmt.linked, Block.linked_stripped body]
  | .assign .. | .const .. | .label .. | .goto .. | .gosub .. | .ret .. | .exit .. | .error ..
  | .throw .. | .delay .. | .suspend .. | .status .. | .declareWeb .. | .call .. | .input ..
  | .comment .. | .doc .. | .noop .. => rfl

theorem Stmt.listLinked_stripped :
    ∀ body : List Stmt, Stmt.listLinked (Stmt.listStripped body) = Stmt.listLinked body
  | [] => rfl
  | s :: rest => by
    have ih := Stmt.listLinked_stripped rest
    cases hs : s.isComment with
    | true => simp [Stmt.listStripped, Stmt.listLinked, hs, ih]
    | false =>
      simp [Stmt.listStripped, Stmt.listLinked, hs, ih, Stmt.isComment_stripped,
        Stmt.linked_stripped s]

/-- The closing line is filled in from the statements that are left, and these are the same. This is
the one case in which the walk computes something from a block as a whole. -/
theorem Block.linked_stripped : ∀ b : Block, b.stripped.linked = b.linked
  | .mk body line endLine => by
    simp only [Block.stripped, Block.linked, Stmt.listLinked_stripped body]

theorem Block.optionLinked_stripped :
    ∀ b : Option Block, Block.optionLinked (Block.optionStripped b) = Block.optionLinked b
  | some b => by simp only [Block.optionStripped, Block.optionLinked, Block.linked_stripped b]
  | none => rfl

theorem Branch.linked_stripped : ∀ b : Branch, b.stripped.linked = b.linked
  | .mk test block => by simp only [Branch.stripped, Branch.linked, Block.linked_stripped block]

theorem Branch.listLinked_stripped :
    ∀ bs : List Branch, Branch.listLinked (Branch.listStripped bs) = Branch.listLinked bs
  | [] => rfl
  | b :: rest => by
    simp only [Branch.listStripped, Branch.listLinked, Branch.linked_stripped b,
      Branch.listLinked_stripped rest]

end

theorem Stmt.unknownEscapes_of_isComment {s : Stmt} (h : s.isComment = true) :
    s.unknownEscapes = [] := by
  cases s with
  | comment => rfl
  | doc => rfl
  | _ => cases h

mutual

/-- Comments have no literals, so they add no unknown escapes. The warnings are computed from the
script before it is linked, so this is a walk of its own. -/
theorem Stmt.unknownEscapes_stripped : ∀ s : Stmt, s.stripped.unknownEscapes = s.unknownEscapes
  | .compound block => by
    simp only [Stmt.stripped, Stmt.unknownEscapes, Block.unknownEscapes_stripped block]
  | .condition branches otherwise line => by
    simp only [Stmt.stripped, Stmt.unknownEscapes, Branch.listUnknownEscapes_stripped branches,
      Block.optionUnknownEscapes_stripped otherwise]
  | .cycle test body line => by
    simp only [Stmt.stripped, Stmt.unknownEscapes, Block.unknownEscapes_stripped body]
  | .doCycle body test line => by
    simp only [Stmt.stripped, Stmt.unknownEscapes, Block.unknownEscapes_stripped body]
  | .retry attempts body test line => by
    simp only [Stmt.stripped, Stmt.unknownEscapes, Block.unknownEscapes_stripped body]
  | .tryCatch body catchVar handler line => by
    simp only [Stmt.stripped, Stmt.unknownEscapes, Block.unknownEscapes_stripped body,
      Block.unknownEscapes_stripped handler]
  | .function name params body line => by
    simp only [Stmt.stripped, Stmt.unknownEscapes, Block.unknownEscapes_stripped body]
  | .included source body line => by
    simp only [Stmt.stripped, Stmt.unknownEscapes, Block.unknownEscapes_stripped body]
  | .assign .. | .const .. | .label .. | .goto .. | .gosub .. | .ret .. | .exit .. | .error ..
  | .throw .. | .delay .. | .suspend .. | .status .. | .declareWeb .. | .call .. | .input ..
  | .comment .. | .doc .. | .noop .. => rfl

theorem Stmt.listUnknownEscapes_stripped :
    ∀ body : List Stmt,
      Stmt.listUnknownEscapes (Stmt.listStripped body) = Stmt.listUnknownEscapes body
  | [] => rfl
  | s :: rest => by
    have ih := Stmt.listUnknownEscapes_stripped rest
    cases hs : s.isComment with
    | true =>
      simp [Stmt.listStripped, Stmt.listUnknownEscapes, hs, ih, Stmt.unknownEscapes_of_isComment hs]
    | false =>
      simp [Stmt.listStripped, Stmt.listUnknownEscapes, hs, ih, Stmt.unknownEscapes_stripped s]

theorem Block.unknownEscapes_stripped : ∀ b : Block, b.stripped.unknownEscapes = b.unknownEscapes
  | .mk body line endLine => by
    simp only [Block.stripped, Block.unknownEscapes, Stmt.listUnknownEscapes_stripped body]

theorem Block.optionUnknownEscapes_stripped :
    ∀ b : Option Block,
      Block.optionUnknownEscapes (Block.optionStripped b) = Block.optionUnknownEscapes b
  | some b => by
    simp only [Block.optionStripped, Block.optionUnknownEscapes, Block.unknownEscapes_stripped b]
  | none => rfl

theorem Branch.unknownEscapes_stripped :
    ∀ b : Branch, b.stripped.unknownEscapes = b.unknownEscapes
  | .mk test block => by
    simp only [Branch.stripped, Branch.unknownEscapes, Block.unknownEscapes_stripped block]

theorem Branch.listUnknownEscapes_stripped :
    ∀ bs : List Branch,
      Branch.listUnknownEscapes (Branch.listStripped bs) = Branch.listUnknownEscapes bs
  | [] => rfl
  | b :: rest => by
    simp only [Branch.listStripped, Branch.listUnknownEscapes, Branch.unknownEscapes_stripped b,
      Branch.listUnknownEscapes_stripped rest]

end

/-- A script and the script without its comments are one program. All parts of a program are made
from the linked tree, but for the warnings about literals, which are made from the script as it
came. -/
theorem Program.link_stripped (script : Block) : link script.stripped = link script := by
  simp only [link, Block.linked_stripped, Block.unknownEscapes_stripped]

/-! ## No comment is forgotten -/

/-- All blocks of a statement; the body of a function is one of them, though positions do not lead
into it. -/
def Stmt.blocks : Stmt → List Block
  | .function _ _ body _ => [body]
  | s => s.children.map (·.2)

/-- The statement stands somewhere in the block, at any depth. Other than for positions, the bodies
of functions count, since comments are deleted from these as well. -/
inductive Block.Encloses : Block → Stmt → Prop where
  | here {b : Block} {s : Stmt} (h : s ∈ b.body) : Encloses b s
  | inside {b c : Block} {s t : Stmt} (hs : s ∈ b.body) (hc : c ∈ s.blocks) (h : Encloses c t) :
      Encloses b t

theorem Stmt.mem_listStripped {body : List Stmt} {s : Stmt} (h : s ∈ listStripped body) :
    ∃ t : Stmt, s = t.stripped ∧ t.isComment = false := by
  induction body with
  | nil => cases h
  | cons first rest ih =>
    rw [listStripped] at h
    cases hfirst : first.isComment with
    | true =>
      rw [hfirst, if_pos rfl] at h
      exact ih h
    | false =>
      rw [hfirst, if_neg Bool.false_ne_true] at h
      obtain rfl | hrest := List.mem_cons.mp h
      · exact ⟨first, rfl, hfirst⟩
      · exact ih hrest

theorem Branch.mem_listStripped {branches : List Branch} {b : Branch}
    (h : b ∈ listStripped branches) :
    ∃ c : Block, b.block = c.stripped := by
  induction branches with
  | nil => cases h
  | cons first rest ih =>
    obtain rfl | hrest := List.mem_cons.mp h
    · cases first with
      | mk test block => exact ⟨block, rfl⟩
    · exact ih hrest

/-- The blocks of a stripped statement are stripped. It is the step from a block to those inside. -/
theorem Stmt.blocks_stripped {s : Stmt} {c : Block} (h : c ∈ s.stripped.blocks) :
    ∃ d : Block, c = d.stripped := by
  cases s with
  | compound block => exact ⟨block, List.mem_singleton.mp h⟩
  | cycle test body line => exact ⟨body, List.mem_singleton.mp h⟩
  | doCycle body test line => exact ⟨body, List.mem_singleton.mp h⟩
  | retry attempts body test line => exact ⟨body, List.mem_singleton.mp h⟩
  | function name params body line => exact ⟨body, List.mem_singleton.mp h⟩
  | included source body line => exact ⟨body, List.mem_singleton.mp h⟩
  | tryCatch body catchVar handler line =>
    obtain rfl | h := List.mem_cons.mp h
    · exact ⟨body, rfl⟩
    · exact ⟨handler, List.mem_singleton.mp h⟩
  | condition branches otherwise line =>
    simp only [stripped, blocks, children, List.map_append, List.mem_append, List.mem_map,
      List.mem_mapIdx] at h
    obtain ⟨_, ⟨i, hi, rfl⟩, rfl⟩ | ⟨entry, hentry, rfl⟩ := h
    · exact Branch.mem_listStripped (List.getElem_mem hi)
    · cases otherwise with
      | none => cases hentry
      | some block =>
        obtain rfl := List.mem_singleton.mp hentry
        exact ⟨block, rfl⟩
  | _ => cases h

/-- **No comment is left**, at any depth and in no function. The induction is on where the statement
stands, from the outside in. -/
theorem Block.not_comment_of_encloses {b : Block} {s : Stmt} (h : b.stripped.Encloses s) :
    s.isComment = false := by
  -- The induction is on a derivation about the stripped block, so which block that is has to be
  -- forgotten first.
  generalize hb : b.stripped = stripped at h
  induction h generalizing b with
  | here h =>
    subst hb
    cases b with
    | mk body line endLine =>
      obtain ⟨t, rfl, ht⟩ := Stmt.mem_listStripped h
      rw [Stmt.isComment_stripped, ht]
  | inside hs hc _ ih =>
    subst hb
    cases b with
    | mk body line endLine =>
      obtain ⟨t, rfl, -⟩ := Stmt.mem_listStripped hs
      obtain ⟨d, rfl⟩ := Stmt.blocks_stripped hc
      exact ih rfl

/-! ## Linking again

The literals of a tree are collected so that the condition on them can be stated in one place and
decided on a given script. -/

namespace Text

/-- Each step of the decoder that does anything needs a backslash. Without one it copies characters,
and has nothing to warn of. -/
theorem decode_of_notMem {cs : List Char} (h : '\\' ∉ cs) : decode cs = ⟨cs, []⟩ := by
  fun_induction decode cs with
  | case1 => rfl
  | case2 => exact absurd List.mem_cons_self h
  | case3 => rfl
  | case4 => exact absurd List.mem_cons_self h
  | case5 => exact absurd List.mem_cons_self h
  | case6 c d rest hc ih =>
    rw [ih fun hmem => h (List.mem_cons_of_mem _ hmem)]
    rfl

theorem decodeEscapes_of_notMem {raw : String} (h : '\\' ∉ raw.toList) :
    decodeEscapes raw = (raw, []) := by
  simp [decodeEscapes, decode_of_notMem h]

end Text

mutual

def Expr.literals : Expr → List String
  | .string value _ => [value]
  | .binary left _ right _ => left.literals ++ right.literals
  | .unary _ operand _ => operand.literals
  | .field object _ _ _ => object.literals
  | .index object place _ => object.literals ++ place.literals
  | .list items _ => Expr.listLiterals items
  | .call _ args _ => Expr.listLiterals args
  | .num .. | .bool .. | .null .. | .var .. | .noop .. => []

def Expr.listLiterals : List Expr → List String
  | [] => []
  | e :: rest => e.literals ++ Expr.listLiterals rest

end

mutual

def Stmt.literals : Stmt → List String
  | .compound block => block.literals
  | .assign targets _ values _ => Expr.listLiterals targets ++ Expr.listLiterals values
  | .const bindings _ => Expr.listLiterals (bindings.map ConstBinding.value)
  | .condition branches otherwise _ =>
    Branch.listLiterals branches ++ Block.optionLiterals otherwise
  | .cycle test body _ => test.literals ++ body.literals
  | .doCycle body test _ => body.literals ++ test.literals
  | .retry attempts body test _ =>
    attempts.literals ++ body.literals ++ Expr.listLiterals test.toList
  | .ret value _ => Expr.listLiterals value.toList
  | .exit status _ => Expr.listLiterals status.toList
  | .tryCatch body _ handler _ => body.literals ++ handler.literals
  | .error message code _ => message.literals ++ Expr.listLiterals code.toList
  | .throw value _ => value.literals
  | .delay duration _ => duration.literals
  | .status text _ => text.literals
  | .declareWeb _ _ _ _ url _ => Expr.listLiterals url.toList
  | .function _ _ body _ => body.literals
  | .call _ args _ => Expr.listLiterals args
  | .included _ body _ => body.literals
  | .label .. | .goto .. | .gosub .. | .suspend .. | .input .. | .comment .. | .doc .. | .noop .. =>
    []

def Stmt.listLiterals : List Stmt → List String
  | [] => []
  | s :: rest => s.literals ++ Stmt.listLiterals rest

/-- The string literals in a block, at any depth. -/
def Block.literals : Block → List String
  | .mk body _ _ => Stmt.listLiterals body

def Block.optionLiterals : Option Block → List String
  | some b => b.literals
  | none => []

def Branch.listLiterals : List Branch → List String
  | [] => []
  | .mk test block :: rest => test.literals ++ block.literals ++ Branch.listLiterals rest

end

/-- Literals that hold no backslash. It is asked of a list and not of a tree, so that it splits with
the list and needs no definition for each kind of node. -/
def Unescaped (literals : List String) : Prop := ∀ s ∈ literals, '\\' ∉ s.toList

@[simp]
theorem unescaped_append {xs ys : List String} :
    Unescaped (xs ++ ys) ↔ Unescaped xs ∧ Unescaped ys := by
  simp only [Unescaped, List.mem_append]
  constructor
  · intro h
    exact ⟨fun s hs => h s (.inl hs), fun s hs => h s (.inr hs)⟩
  · rintro ⟨hx, hy⟩ s (hs | hs)
    · exact hx s hs
    · exact hy s hs

mutual

/-- Without a backslash in its literals an expression is linked already. Literals are all that
linking changes in an expression. -/
theorem Expr.linked_of_unescaped : ∀ e : Expr, Unescaped e.literals → e.linked = e
  | .string value line, h => by
    have hvalue := Text.decodeEscapes_of_notMem (h value (List.mem_singleton.mpr rfl))
    simp only [Expr.linked, hvalue]
  | .binary left op right line, h => by
    simp only [Expr.literals, unescaped_append] at h
    simp only [Expr.linked, Expr.linked_of_unescaped left h.1, Expr.linked_of_unescaped right h.2]
  | .unary op operand line, h => by
    simp only [Expr.linked, Expr.linked_of_unescaped operand h]
  | .field object attr attrLine line, h => by
    simp only [Expr.linked, Expr.linked_of_unescaped object h]
  | .index object place line, h => by
    simp only [Expr.literals, unescaped_append] at h
    simp only [Expr.linked, Expr.linked_of_unescaped object h.1, Expr.linked_of_unescaped place h.2]
  | .list items line, h => by
    simp only [Expr.linked, Expr.listLinked_of_unescaped items h]
  | .call name args line, h => by
    simp only [Expr.linked, Expr.listLinked_of_unescaped args h]
  | .num .., _ | .bool .., _ | .null .., _ | .var .., _ | .noop .., _ => rfl

theorem Expr.listLinked_of_unescaped :
    ∀ es : List Expr, Unescaped (Expr.listLiterals es) → Expr.listLinked es = es
  | [], _ => rfl
  | e :: rest, h => by
    simp only [Expr.listLiterals, unescaped_append] at h
    simp only [Expr.listLinked, Expr.linked_of_unescaped e h.1,
      Expr.listLinked_of_unescaped rest h.2]

end

theorem Expr.map_linked_of_unescaped {e : Option Expr}
    (h : Unescaped (Expr.listLiterals e.toList)) :
    e.map Expr.linked = e := by
  cases e with
  | none => rfl
  | some e =>
    simp only [Option.toList_some, Expr.listLiterals, List.append_nil] at h
    simp only [Option.map_some, e.linked_of_unescaped h]

theorem ConstBinding.map_linked_of_unescaped {bindings : List ConstBinding}
    (h : Unescaped (Expr.listLiterals (bindings.map ConstBinding.value))) :
    bindings.map ConstBinding.linked = bindings := by
  induction bindings with
  | nil => rfl
  | cons b rest ih =>
    simp only [List.map_cons, Expr.listLiterals, unescaped_append] at h
    simp only [List.map_cons, ih h.2, ConstBinding.linked, b.value.linked_of_unescaped h.1]

/-- A closing line that was filled in is filled in the same again. Zero stands for one that is
missing, and an empty block on line zero is filled in with zero, so the second walk does fill it in
again. -/
theorem Block.closingLine_again (body : List Stmt) (line endLine : Line) :
    let filled := if endLine = 0 then closingLine body line else endLine
    (if filled = 0 then closingLine body line else filled) = filled := by
  intro filled
  by_cases h : endLine = 0
  · simp only [filled, if_pos h]
    split <;> rfl
  · simp only [filled, if_neg h]

mutual

/-- **A linked statement whose literals hold no backslash is linked already.** The condition is on
the literals after linking: these are what a second walk would decode. -/
theorem Stmt.linked_linked :
    ∀ s : Stmt, Unescaped s.linked.literals → s.linked.linked = s.linked
  | .compound block, h => by
    simp only [Stmt.linked, Block.linked_linked block h]
  -- the literals of a statement are those of its parts in turn, so the hypothesis splits with it
  | .assign targets op values line, h => by
    simp only [Stmt.linked, Stmt.literals, unescaped_append] at h
    simp only [Stmt.linked, Expr.listLinked_of_unescaped _ h.1, Expr.listLinked_of_unescaped _ h.2]
  | .const bindings line, h => by
    simp only [Stmt.linked, ConstBinding.map_linked_of_unescaped h]
  | .condition branches otherwise line, h => by
    simp only [Stmt.linked, Stmt.literals, unescaped_append] at h
    simp only [Stmt.linked, Branch.listLinked_linked branches h.1,
      Block.optionLinked_linked otherwise h.2]
  | .cycle test body line, h => by
    simp only [Stmt.linked, Stmt.literals, unescaped_append] at h
    simp only [Stmt.linked, Expr.linked_of_unescaped _ h.1, Block.linked_linked body h.2]
  | .doCycle body test line, h => by
    simp only [Stmt.linked, Stmt.literals, unescaped_append] at h
    simp only [Stmt.linked, Block.linked_linked body h.1, Expr.linked_of_unescaped _ h.2]
  | .retry attempts body test line, h => by
    simp only [Stmt.linked, Stmt.literals, unescaped_append] at h
    simp only [Stmt.linked, Expr.linked_of_unescaped _ h.1.1, Block.linked_linked body h.1.2,
      Expr.map_linked_of_unescaped h.2]
  | .ret value line, h => by
    simp only [Stmt.linked, Expr.map_linked_of_unescaped h]
  | .exit status line, h => by
    simp only [Stmt.linked, Expr.map_linked_of_unescaped h]
  | .tryCatch body catchVar handler line, h => by
    simp only [Stmt.linked, Stmt.literals, unescaped_append] at h
    simp only [Stmt.linked, Block.linked_linked body h.1, Block.linked_linked handler h.2]
  | .error message code line, h => by
    simp only [Stmt.linked, Stmt.literals, unescaped_append] at h
    simp only [Stmt.linked, Expr.linked_of_unescaped _ h.1, Expr.map_linked_of_unescaped h.2]
  | .throw value line, h => by
    simp only [Stmt.linked, Expr.linked_of_unescaped _ h]
  | .delay duration line, h => by
    simp only [Stmt.linked, Expr.linked_of_unescaped _ h]
  | .status text line, h => by
    simp only [Stmt.linked, Expr.linked_of_unescaped _ h]
  | .declareWeb name params outputs calledAs url line, h => by
    simp only [Stmt.linked, Expr.map_linked_of_unescaped h]
  | .function name params body line, h => by
    simp only [Stmt.linked, Block.linked_linked body h]
  | .call name args line, h => by
    simp only [Stmt.linked, Expr.listLinked_of_unescaped _ h]
  | .included source body line, h => by
    simp only [Stmt.linked, Block.linked_linked body h]
  -- no expressions and no blocks: linking leaves these as they are the first time
  | .label .., _ | .goto .., _ | .gosub .., _ | .suspend .., _ | .input .., _ | .comment .., _
  | .doc .., _ | .noop .., _ => rfl

theorem Stmt.listLinked_linked :
    ∀ body : List Stmt, Unescaped (Stmt.listLiterals (Stmt.listLinked body)) →
      Stmt.listLinked (Stmt.listLinked body) = Stmt.listLinked body
  | [], _ => rfl
  | s :: rest, h => by
    cases hs : s.isComment with
    | true =>
      simp only [Stmt.listLinked, hs, if_true] at h ⊢
      exact Stmt.listLinked_linked rest h
    | false =>
      simp only [Stmt.listLinked, hs, Bool.false_eq_true, if_false, Stmt.listLiterals,
        unescaped_append] at h
      simp [Stmt.listLinked, hs, Stmt.isComment_linked, Stmt.linked_linked s h.1,
        Stmt.listLinked_linked rest h.2]

theorem Block.linked_linked :
    ∀ b : Block, Unescaped b.linked.literals → b.linked.linked = b.linked
  | .mk body line endLine, h => by
    have hbody := Stmt.listLinked_linked body h
    simp only [Block.linked, hbody, Block.closingLine_again]

theorem Block.optionLinked_linked :
    ∀ b : Option Block, Unescaped (Block.optionLiterals (Block.optionLinked b)) →
      Block.optionLinked (Block.optionLinked b) = Block.optionLinked b
  | some b, h => by simp only [Block.optionLinked, Block.linked_linked b h]
  | none, _ => rfl

theorem Branch.listLinked_linked :
    ∀ bs : List Branch, Unescaped (Branch.listLiterals (Branch.listLinked bs)) →
      Branch.listLinked (Branch.listLinked bs) = Branch.listLinked bs
  | [], _ => rfl
  | .mk test block :: rest, h => by
    simp only [Branch.listLinked, Branch.linked, Branch.listLiterals, unescaped_append] at h
    simp only [Branch.listLinked, Branch.linked, Expr.linked_of_unescaped _ h.1.1,
      Block.linked_linked block h.1.2, Branch.listLinked_linked rest h.2]

end

/-! ## Programs -/

namespace Program

/-- **Comments do not matter.** Scripts that are the same once the comments are deleted from every
block link to the same tree, tables, version and warnings, and run the same, with or without someone
who watches. Linking a linked tree without backslashes in its literals gives it back. -/
theorem link_ignores_comments {a b : Block} (h : a.stripped = b.stripped) :
    (∀ s, a.stripped.Encloses s → s.isComment = false) ∧
    ((link a).root = (link b).root ∧ (link a).version = (link b).version ∧
      (link a).labels = (link b).labels ∧ (link a).functions = (link b).functions ∧
      (link a).warnings = (link b).warnings) ∧
    (∀ {σ : Type} (options : Options) (host : Host σ) (scope : Scope) (world : σ)
      (fuel limit : Nat), (Machine.new scope world).run ⟨link a, options, host⟩ fuel limit =
        (Machine.new scope world).run ⟨link b, options, host⟩ fuel limit ∧
      ∀ breakpoints cancellation always calls,
        (Session.new (Machine.new scope world) breakpoints cancellation).runs
            ⟨link a, options, host⟩ fuel limit always calls =
          (Session.new (Machine.new scope world) breakpoints cancellation).runs
            ⟨link b, options, host⟩ fuel limit always calls) ∧
    (Unescaped (link a).root.literals →
      (link (link a).root).root = (link a).root ∧
        (link (link a).root).version = (link a).version) := by
  have hlink : link a = link b := by
    rw [← link_stripped a, h, link_stripped]
  refine ⟨fun s hs => Block.not_comment_of_encloses hs, ?_, ?_, ?_⟩
  · rw [hlink]
    exact ⟨rfl, rfl, rfl, rfl, rfl⟩
  · intro σ options host scope world fuel limit
    rw [hlink]
    exact ⟨rfl, fun _ _ _ _ => rfl⟩
  · intro hplain
    have hroot : (link (link a).root).root = (link a).root := a.linked_linked hplain
    exact ⟨hroot, by simp only [version, hroot]⟩

/-- Comments in every kind of block, most of them on lines behind all statements; no block has a
closing line. -/
def annotated : Block :=
  .mk
    [.comment "head" 1,
      .function "f" ["x"] (.mk [.doc "gives x" 3, .ret (some (.var "x" 4)) 4,
        .comment "f ends" 9] 2 0) 2,
      .tryCatch
        (.mk
          [.included "lib"
            (.mk
              [.retry (.num 2.0 12) (.mk [.status (.string "try" 13) 13, .doc "again" 29] 12 0) none
                12, .comment "lib ends" 39]
              11 0)
            11]
          10 0)
        none (.mk [.comment "nothing to do" 49] 15 0) 10,
      .condition [.mk (.bool true 22) (.mk [.comment "empty" 59] 22 0)]
        (some (.mk [.cycle (.bool false 24) (.mk [.doc "empty" 69] 24 0) 24] 23 0)) 22,
      .comment "tail" 99]
    0 0

/-- The same script with other comments. -/
def terse : Block :=
  .mk
    [.function "f" ["x"] (.mk [.ret (some (.var "x" 4)) 4] 2 0) 2,
      .doc "one" 5,
      .tryCatch
        (.mk
          [.included "lib"
            (.mk [.retry (.num 2.0 12) (.mk [.status (.string "try" 13) 13] 12 0) none 12] 11 0) 11]
          10 0)
        none (.mk [] 15 0) 10,
      .condition [.mk (.bool true 22) (.mk [] 22 0)]
        (some (.mk [.comment "two" 23, .cycle (.bool false 24) (.mk [] 24 0) 24] 23 0)) 22]
    0 0

/-- The script ends with its last statement, and not with its last comment. -/
theorem link_ignores_comments_annotated :
    annotated.stripped = terse.stripped ∧ Unescaped (link annotated).root.literals ∧
      (link annotated).root.endLine = 24 ∧ (link annotated).root = (link terse).root ∧
      (link annotated).version = (link terse).version ∧
      (link (link annotated).root).root = (link annotated).root := by
  have hsame : annotated.stripped = terse.stripped := rfl
  have hplain : Unescaped (link annotated).root.literals := by
    unfold Unescaped
    decide +kernel
  obtain ⟨-, ⟨hroot, hversion, -⟩, -, hagain⟩ := link_ignores_comments hsame
  exact ⟨hsame, hplain, by decide +kernel, hroot, hversion, (hagain hplain).1⟩

end Program

end Stepwise
