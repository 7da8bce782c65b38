import Stepwise.Script.Path
import Stepwise.Text.Escape

/-!
# Linked scripts

Before a script runs, its tree is brought into the form that runs: comments go, string literals get
their escapes decoded, and blocks without a closing line get the last line that occurs in them. What
a literal holds of unknown escapes is listed apart, in the order of the text, by functions of the
same shape.
-/

namespace Stepwise

/-- What linking has to say about a script; nothing of it stops a run. -/
inductive LinkWarning where
  | unrecognizedEscape (line : Line) (sequence : String)
  | duplicateLabel (line : Line) (name : String)
  | undefinedLabel (line : Line) (name : String)
  deriving Repr, DecidableEq

namespace LinkWarning

def message : LinkWarning → String
  | .unrecognizedEscape line sequence =>
    s!"line {line}: unrecognized escape sequence '{sequence}'"
  | .duplicateLabel line name => s!"line {line}: label '{name}' already declared"
  | .undefinedLabel line name => s!"line {line}: label '{name}' not declared"

/-- Whether a check of the script fails for it. -/
def isFatal : LinkWarning → Bool
  | .undefinedLabel .. => true
  | _ => false

end LinkWarning

/-! ## Expressions -/

namespace Expr

mutual

/-- The expression with the escapes of its literals decoded. -/
def linked : Expr → Expr
  | .num value line => .num value line
  | .bool value line => .bool value line
  | .null line => .null line
  | .string value line => .string (Text.decodeEscapes value).1 line
  | .var name line => .var name line
  | .binary left op right line => .binary left.linked op right.linked line
  | .unary op operand line => .unary op operand.linked line
  | .field object attr attrLine line => .field object.linked attr attrLine line
  | .index object place line => .index object.linked place.linked line
  | .list items line => .list (listLinked items) line
  | .call name args line => .call name (listLinked args) line
  | .noop line => .noop line

def listLinked : List Expr → List Expr
  | [] => []
  | e :: rest => e.linked :: listLinked rest

end

mutual

/-- The unknown escapes of the literals in an expression. -/
def unknownEscapes : Expr → List LinkWarning
  | .string value line => (Text.decodeEscapes value).2.map (.unrecognizedEscape line)
  | .binary left _ right _ => left.unknownEscapes ++ right.unknownEscapes
  | .unary _ operand _ => operand.unknownEscapes
  | .field object _ _ _ => object.unknownEscapes
  | .index object place _ => object.unknownEscapes ++ place.unknownEscapes
  | .list items _ => listUnknownEscapes items
  | .call _ args _ => listUnknownEscapes args
  | .num .. | .bool .. | .null .. | .var .. | .noop .. => []

def listUnknownEscapes : List Expr → List LinkWarning
  | [] => []
  | e :: rest => e.unknownEscapes ++ listUnknownEscapes rest

end

def optionUnknownEscapes : Option Expr → List LinkWarning
  | some e => e.unknownEscapes
  | none => []

end Expr

namespace ConstBinding

def linked (b : ConstBinding) : ConstBinding := ⟨b.name, b.value.linked⟩

end ConstBinding

/-! ## Closing lines -/

namespace Stmt

/-- The last line of a statement, closing lines of its blocks included. -/
def lastLine (s : Stmt) : Line :=
  let nested : Line :=
    match s with
    -- the body of a function is a unit of its own, not a child of the statement
    | .function _ _ body _ => body.endLine
    | other => (other.children.map fun c => c.2.endLine).foldl max 0
  max s.line nested

end Stmt

namespace Block

/-- The closing line of a block that has none: the last line in it, and not before it opens. -/
def closingLine (body : List Stmt) (line : Line) : Line :=
  max ((body.map Stmt.lastLine).foldl max 0) line

end Block

/-! ## Statements -/

mutual

/-- The statement in the form that runs. -/
def Stmt.linked : Stmt → Stmt
  | .compound block => .compound block.linked
  | .assign targets op values line =>
    .assign (Expr.listLinked targets) op (Expr.listLinked values) line
  | .const bindings line => .const (bindings.map ConstBinding.linked) line
  | .condition branches otherwise line =>
    .condition (Branch.listLinked branches) (Block.optionLinked otherwise) line
  | .cycle test body line => .cycle test.linked body.linked line
  | .doCycle body test line => .doCycle body.linked test.linked line
  | .retry attempts body test line =>
    .retry attempts.linked body.linked (test.map Expr.linked) line
  | .label name line => .label name line
  | .goto label line => .goto label line
  | .gosub label line => .gosub label line
  | .ret value line => .ret (value.map Expr.linked) line
  | .exit status line => .exit (status.map Expr.linked) line
  | .tryCatch body catchVar handler line => .tryCatch body.linked catchVar handler.linked line
  | .error message code line => .error message.linked (code.map Expr.linked) line
  | .throw value line => .throw value.linked line
  | .delay duration line => .delay duration.linked line
  | .suspend line => .suspend line
  | .status text line => .status text.linked line
  | .declareWeb name params outputs calledAs url line =>
    .declareWeb name params outputs calledAs (url.map Expr.linked) line
  | .function name params body line => .function name params body.linked line
  | .call name args line => .call name (Expr.listLinked args) line
  | .included source body line => .included source body.linked line
  | .input name line => .input name line
  | .comment text line => .comment text line
  | .doc text line => .doc text line
  | .noop line => .noop line

/-- Statements without the comments among them. -/
def Stmt.listLinked : List Stmt → List Stmt
  | [] => []
  | s :: rest => if s.isComment then Stmt.listLinked rest else s.linked :: Stmt.listLinked rest

def Block.linked : Block → Block
  | .mk body line endLine =>
    .mk (Stmt.listLinked body) line
      (if endLine = 0 then Block.closingLine (Stmt.listLinked body) line else endLine)

def Block.optionLinked : Option Block → Option Block
  | some b => some b.linked
  | none => none

def Branch.linked : Branch → Branch
  | .mk test block => .mk test.linked block.linked

def Branch.listLinked : List Branch → List Branch
  | [] => []
  | b :: rest => b.linked :: Branch.listLinked rest

end

mutual

def Stmt.unknownEscapes : Stmt → List LinkWarning
  | .compound block => block.unknownEscapes
  | .assign targets _ values _ =>
    Expr.listUnknownEscapes targets ++ Expr.listUnknownEscapes values
  | .const bindings _ => bindings.flatMap fun b => b.value.unknownEscapes
  | .condition branches otherwise _ =>
    Branch.listUnknownEscapes branches ++ Block.optionUnknownEscapes otherwise
  | .cycle test body _ => test.unknownEscapes ++ body.unknownEscapes
  | .doCycle body test _ => test.unknownEscapes ++ body.unknownEscapes
  | .retry attempts body test _ =>
    attempts.unknownEscapes ++ Expr.optionUnknownEscapes test ++ body.unknownEscapes
  | .ret value _ => Expr.optionUnknownEscapes value
  | .exit status _ => Expr.optionUnknownEscapes status
  | .tryCatch body _ handler _ => body.unknownEscapes ++ handler.unknownEscapes
  | .error message code _ => message.unknownEscapes ++ Expr.optionUnknownEscapes code
  | .throw value _ => value.unknownEscapes
  | .delay duration _ => duration.unknownEscapes
  | .status text _ => text.unknownEscapes
  | .declareWeb _ _ _ _ url _ => Expr.optionUnknownEscapes url
  | .function _ _ body _ => body.unknownEscapes
  | .call _ args _ => Expr.listUnknownEscapes args
  | .included _ body _ => body.unknownEscapes
  | .label .. | .goto .. | .gosub .. | .suspend .. | .input .. | .comment .. | .doc .. | .noop .. =>
    []

def Stmt.listUnknownEscapes : List Stmt → List LinkWarning
  | [] => []
  | s :: rest => s.unknownEscapes ++ Stmt.listUnknownEscapes rest

def Block.unknownEscapes : Block → List LinkWarning
  | .mk body _ _ => Stmt.listUnknownEscapes body

def Block.optionUnknownEscapes : Option Block → List LinkWarning
  | some b => b.unknownEscapes
  | none => []

def Branch.unknownEscapes : Branch → List LinkWarning
  | .mk test block => test.unknownEscapes ++ block.unknownEscapes

def Branch.listUnknownEscapes : List Branch → List LinkWarning
  | [] => []
  | b :: rest => b.unknownEscapes ++ Branch.listUnknownEscapes rest

end

end Stepwise
