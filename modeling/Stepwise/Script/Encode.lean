import Stepwise.Json.Basic
import Stepwise.Script.Basic

/-!
# Scripts as JSON trees

The canonical tree of a script: every field is written, in a fixed order, the tag `t` in front, with
null for what is absent. The tree names every part of the script, so two scripts with one tree are
the same script as long as their number literals are finite; the text of the tree is what the
version of a script is computed from.
-/

namespace Stepwise

namespace Json

def ofLine (line : Line) : Json := .int line.toNat

/-- A number literal; one that is not finite has no number in JSON and is null. -/
def ofNumeral (x : Float) : Json := if x.isFinite then .float x else .null

def ofTexts (texts : List String) : Json := .array (texts.map .str)

def ofText? : Option String → Json
  | some s => .str s
  | none => .null

end Json

namespace Expr

mutual

def toJson : Expr → Json
  | .num value line => .object [("t", .str "Num"), ("v", .ofNumeral value), ("line", .ofLine line)]
  | .bool value line => .object [("t", .str "Bool"), ("v", .bool value), ("line", .ofLine line)]
  | .null line => .object [("t", .str "Null"), ("line", .ofLine line)]
  | .string value line => .object [("t", .str "String"), ("v", .str value), ("line", .ofLine line)]
  | .var name line => .object [("t", .str "Var"), ("name", .str name), ("line", .ofLine line)]
  | .binary left op right line =>
    .object [("t", .str "BinOp"), ("left", left.toJson), ("op", .str op.sign),
      ("right", right.toJson), ("line", .ofLine line)]
  | .unary op operand line =>
    .object [("t", .str "UnaryOp"), ("op", .str op.sign), ("operand", operand.toJson),
      ("line", .ofLine line)]
  | .field object attr attrLine line =>
    .object [("t", .str "Struct"), ("object", object.toJson),
      ("attr", .object [("name", .str attr), ("line", .ofLine attrLine)]), ("line", .ofLine line)]
  | .index object place line =>
    .object [("t", .str "Array"), ("object", object.toJson), ("index", place.toJson),
      ("line", .ofLine line)]
  | .list items line =>
    .object [("t", .str "List"), ("items", .array (listToJson items)), ("line", .ofLine line)]
  | .call name args line =>
    .object [("t", .str "ProcedureCall"), ("name", .str name), ("args", .array (listToJson args)),
      ("line", .ofLine line)]
  | .noop line => .object [("t", .str "NoOp"), ("line", .ofLine line)]

def listToJson : List Expr → List Json
  | [] => []
  | e :: rest => e.toJson :: listToJson rest

end

def optionToJson : Option Expr → Json
  | some e => e.toJson
  | none => .null

end Expr

namespace ConstBinding

def toJson (b : ConstBinding) : Json :=
  .object [("name", .str b.name), ("value", b.value.toJson)]

end ConstBinding

mutual

def Stmt.toJson : Stmt → Json
  | .compound block => .object (("t", .str "Compound") :: block.members)
  | .assign targets op values line =>
    .object [("t", .str "Assign"), ("targets", .array (Expr.listToJson targets)),
      ("op", .str op.sign), ("values", .array (Expr.listToJson values)), ("line", .ofLine line)]
  | .const bindings line =>
    .object [("t", .str "Const"), ("bindings", .array (bindings.map ConstBinding.toJson)),
      ("line", .ofLine line)]
  | .condition branches otherwise line =>
    .object [("t", .str "Condition"), ("branches", .array (Branch.listToJson branches)),
      ("else_block", Block.optionToJson otherwise), ("line", .ofLine line)]
  | .cycle test body line =>
    .object [("t", .str "Cycle"), ("test", test.toJson), ("body", body.toJson),
      ("line", .ofLine line)]
  | .doCycle body test line =>
    .object [("t", .str "DoCycle"), ("body", body.toJson), ("test", test.toJson),
      ("line", .ofLine line)]
  | .retry attempts body test line =>
    .object [("t", .str "Retry"), ("attempts", attempts.toJson), ("body", body.toJson),
      ("test", Expr.optionToJson test), ("line", .ofLine line)]
  | .label name line => .object [("t", .str "Label"), ("name", .str name), ("line", .ofLine line)]
  | .goto label line =>
    .object [("t", .str "GoToCall"), ("label", .str label), ("line", .ofLine line)]
  | .gosub label line =>
    .object [("t", .str "SubCall"), ("label", .str label), ("line", .ofLine line)]
  | .ret value line =>
    .object [("t", .str "Return"), ("value", Expr.optionToJson value), ("line", .ofLine line)]
  | .exit status line =>
    .object [("t", .str "Exit"), ("status", Expr.optionToJson status), ("line", .ofLine line)]
  | .tryCatch body catchVar handler line =>
    .object [("t", .str "TryCatch"), ("body", body.toJson), ("catch_var", .ofText? catchVar),
      ("catch", handler.toJson), ("line", .ofLine line)]
  | .error message code line =>
    .object [("t", .str "Error"), ("message", message.toJson), ("code", Expr.optionToJson code),
      ("line", .ofLine line)]
  | .throw value line =>
    .object [("t", .str "Throw"), ("value", value.toJson), ("line", .ofLine line)]
  | .delay duration line =>
    .object [("t", .str "Delay"), ("duration", duration.toJson), ("line", .ofLine line)]
  | .suspend line => .object [("t", .str "Suspend"), ("line", .ofLine line)]
  | .status text line =>
    .object [("t", .str "Status"), ("text", text.toJson), ("line", .ofLine line)]
  | .declareWeb name params outputs calledAs url line =>
    .object [("t", .str "DeclareWeb"), ("name", .str name), ("params", .ofTexts params),
      ("outputs", .ofTexts outputs), ("alias", .ofText? calledAs), ("url", Expr.optionToJson url),
      ("line", .ofLine line)]
  | .function name params body line =>
    .object [("t", .str "FunctionDecl"), ("name", .str name), ("params", .ofTexts params),
      ("body", body.toJson), ("line", .ofLine line)]
  | .call name args line =>
    .object [("t", .str "ProcedureCall"), ("name", .str name),
      ("args", .array (Expr.listToJson args)), ("line", .ofLine line)]
  | .included source body line =>
    .object [("t", .str "Include"), ("module", .str source), ("body", body.toJson),
      ("line", .ofLine line)]
  | .input name line => .object [("t", .str "Input"), ("name", .str name), ("line", .ofLine line)]
  | .comment text line =>
    .object [("t", .str "Comment"), ("text", .str text), ("line", .ofLine line)]
  | .doc text line => .object [("t", .str "Doc"), ("text", .str text), ("line", .ofLine line)]
  | .noop line => .object [("t", .str "NoOp"), ("line", .ofLine line)]

def Stmt.listToJson : List Stmt → List Json
  | [] => []
  | s :: rest => s.toJson :: Stmt.listToJson rest

/-- The members of the tree of a block; as a statement a block has a tag in front of them. -/
def Block.members : Block → List (String × Json)
  | .mk body line endLine =>
    [("body", .array (Stmt.listToJson body)), ("line", .ofLine line), ("end_line", .ofLine endLine)]

def Block.toJson (b : Block) : Json := .object b.members

def Block.optionToJson : Option Block → Json
  | some b => b.toJson
  | none => .null

def Branch.toJson : Branch → Json
  | .mk test block => .object [("test", test.toJson), ("block", block.toJson)]

def Branch.listToJson : List Branch → List Json
  | [] => []
  | b :: rest => b.toJson :: Branch.listToJson rest

end

end Stepwise
