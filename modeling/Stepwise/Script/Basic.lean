import Stepwise.Fault
import Stepwise.Script.Operator

/-!
# Scripts as trees

A script is a block of statements. Some statements are simple: they run in one step. The others are
structured and hold blocks of their own, of which they run one or several. A function declaration
holds a block too, but that one is a unit of its own: it runs when the function is called, and not
where it stands.

Every node carries its line in the source; on an expression it may be zero, which means that it is
not known.
-/

namespace Stepwise

inductive Expr where
  | num (value : Float) (line : Line)
  | bool (value : Bool) (line : Line)
  | null (line : Line)
  /-- A string literal; its escapes are decoded when the script is linked. -/
  | string (value : String) (line : Line)
  | var (name : String) (line : Line)
  | binary (left : Expr) (op : BinaryOp) (right : Expr) (line : Line)
  | unary (op : UnaryOp) (operand : Expr) (line : Line)
  /-- `object.attr`; the attribute has a line of its own. -/
  | field (object : Expr) (attr : String) (attrLine : Line) (line : Line)
  | index (object index : Expr) (line : Line)
  | list (items : List Expr) (line : Line)
  /-- A call of a declared service, a function of the script or a built-in. -/
  | call (name : String) (args : List Expr) (line : Line)
  | noop (line : Line)
  deriving Inhabited

namespace Expr

def line : Expr → Line
  | .num _ line | .bool _ line | .null line | .string _ line | .var _ line
  | .binary _ _ _ line | .unary _ _ line | .field _ _ _ line | .index _ _ line
  | .list _ line | .call _ _ line | .noop line => line

end Expr

structure ConstBinding where
  name : String
  value : Expr

mutual

inductive Stmt where
  | compound (block : Block)
  | assign (targets : List Expr) (op : AssignOp) (values : List Expr) (line : Line)
  | const (bindings : List ConstBinding) (line : Line)
  | condition (branches : List Branch) (otherwise : Option Block) (line : Line)
  | cycle (test : Expr) (body : Block) (line : Line)
  | doCycle (body : Block) (test : Expr) (line : Line)
  | retry (attempts : Expr) (body : Block) (test : Option Expr) (line : Line)
  | label (name : String) (line : Line)
  | goto (label : String) (line : Line)
  | gosub (label : String) (line : Line)
  | ret (value : Option Expr) (line : Line)
  | exit (status : Option Expr) (line : Line)
  | tryCatch (body : Block) (catchVar : Option String) (handler : Block) (line : Line)
  | error (message : Expr) (code : Option Expr) (line : Line)
  | throw (value : Expr) (line : Line)
  | delay (duration : Expr) (line : Line)
  | suspend (line : Line)
  | status (text : Expr) (line : Line)
  | declareWeb (name : String) (params outputs : List String) (calledAs : Option String)
      (url : Option Expr) (line : Line)
  | function (name : String) (params : List String) (body : Block) (line : Line)
  | call (name : String) (args : List Expr) (line : Line)
  | included (source : String) (body : Block) (line : Line)
  | input (name : String) (line : Line)
  | comment (text : String) (line : Line)
  | doc (text : String) (line : Line)
  | noop (line : Line)

/-- Statements in order, with the lines on which the block opens and closes. -/
inductive Block where
  | mk (body : List Stmt) (line endLine : Line)

inductive Branch where
  | mk (test : Expr) (block : Block)

end

namespace Block

def body : Block → List Stmt
  | .mk body _ _ => body

def line : Block → Line
  | .mk _ line _ => line

def endLine : Block → Line
  | .mk _ _ endLine => endLine

instance : Inhabited Block := ⟨.mk [] 0 0⟩

end Block

namespace Branch

def test : Branch → Expr
  | .mk test _ => test

def block : Branch → Block
  | .mk _ block => block

end Branch

namespace Stmt

def line : Stmt → Line
  | .compound block => block.line
  | .assign _ _ _ line | .const _ line | .condition _ _ line | .cycle _ _ line
  | .doCycle _ _ line | .retry _ _ _ line | .label _ line | .goto _ line | .gosub _ line
  | .ret _ line | .exit _ line | .tryCatch _ _ _ line | .error _ _ line | .throw _ line
  | .delay _ line | .suspend line | .status _ line | .declareWeb _ _ _ _ _ line
  | .function _ _ _ line | .call _ _ line | .included _ _ line | .input _ line
  | .comment _ line | .doc _ line | .noop line => line

/-- Comments have no meaning; linking drops them. -/
def isComment : Stmt → Bool
  | .comment .. | .doc .. => true
  | _ => false

end Stmt

namespace Block

/-- The line of the statement at `index`, or the closing line behind the last one. -/
def lineAt (b : Block) (index : Nat) : Line :=
  match b.body[index]? with
  | some stmt => stmt.line
  | none => b.endLine

end Block

end Stepwise
