import Stepwise.Json.Printer
import Stepwise.Script.Basic
import Stepwise.Text.Quoted

/-!
# Scripts from JSON trees

Reads the tree of a script. Fields that are not known are ignored, and some may be left out. **Which
of several mistakes is reported** is part of the format: of the fields that are there, the first one
that is wrong, in the order of the members of the object; only if all of those are right, the first
one that is missing, in the order of the declaration. `Check` is the applicative that keeps to this
order.

A node may also be given as an array of its fields in order, a tagged one with the tag in front.
-/

namespace Stepwise

/-! ## Mistakes -/

inductive DecodeError where
  | wrongType (got : Json) (wanted : String)
  | wrongNumber (got : Int) (wanted : String)
  /-- An object that stands for an operator has exactly one member. -/
  | notSingleKey
  | missing (field : String)
  | unknownTag (got : String) (known : List String)
  | wrongLength (length : Nat) (wanted : String)

namespace DecodeError

/-- What a tree is, as messages say it. -/
def describe : Json → String
  | .null => "null"
  | .bool b => "boolean `" ++ toString b ++ "`"
  | .int n => "integer `" ++ toString n ++ "`"
  | .float x => "floating point `" ++ Json.floatText x ++ "`"
  | .str s => "string " ++ Text.quoted s
  | .array _ => "sequence"
  | .object _ => "map"

def message : DecodeError → String
  | .wrongType got wanted => "invalid type: " ++ describe got ++ ", expected " ++ wanted
  | .wrongNumber got wanted =>
    "invalid value: integer `" ++ toString got ++ "`, expected " ++ wanted
  | .notSingleKey => "invalid value: map, expected map with a single key"
  | .missing field => "missing field `" ++ field ++ "`"
  | .unknownTag got known =>
    "unknown variant `" ++ got ++ "`, expected one of " ++
      ", ".intercalate (known.map fun tag => "`" ++ tag ++ "`")
  | .wrongLength length wanted =>
    "invalid length " ++ toString length ++ ", expected " ++ wanted

end DecodeError

namespace Decode

abbrev Reader (α : Type) := Json → Except DecodeError α

inductive Trouble where
  /-- The field is there, at this place among the members, and wrong. -/
  | wrong (place : Nat) (e : DecodeError)
  | absent (e : DecodeError)

namespace Trouble

def error : Trouble → DecodeError
  | .wrong _ e => e
  | .absent e => e

/-- Which of two mistakes is reported; the first argument is of the field declared first. -/
def first : Trouble → Trouble → Trouble
  | .wrong p e, .wrong q e' => if q < p then .wrong q e' else .wrong p e
  | .wrong p e, .absent _ => .wrong p e
  | .absent _, .wrong q e' => .wrong q e'
  | .absent e, .absent _ => .absent e

end Trouble

/-- A value made of fields, all of which are looked at. -/
inductive Check (α : Type) where
  | ok (a : α)
  | bad (t : Trouble)

namespace Check

def seq {α β : Type} : Check (α → β) → Check α → Check β
  | .ok f, .ok a => .ok (f a)
  | .ok _, .bad t => .bad t
  | .bad t, .ok _ => .bad t
  | .bad t, .bad t' => .bad (t.first t')

instance : Applicative Check where
  pure := .ok
  seq f a := Check.seq f (a ())

end Check

/-! ## Fields -/

/-- Whether a node is outermost or inside a tagged one. Inside, a tag may be given by its number. -/
inductive Site where
  | outer
  | inner

/-- The fields of a node: by name, or in the order of their declaration. -/
inductive Fields where
  | named (members : List (String × Json))
  | ordered (items : List Json)

namespace Fields

/-- A field with its place among the members. -/
def find? (f : Fields) (index : Nat) (name : String) : Option (Nat × Json) :=
  match f with
  | .named members =>
    match members.findIdx? fun m => m.1 == name with
    | some place => (members[place]?).map fun m => (place, m.2)
    | none => none
  | .ordered items => (items[index]?).map fun j => (index, j)

end Fields

/-- How messages call a node, and how many fields it has. -/
structure Shape where
  owner : String
  count : Nat

namespace Shape

def elements (n : Nat) : String := toString n ++ (if n = 1 then " element" else " elements")

def absent (s : Shape) (f : Fields) (index : Nat) (name : String) : DecodeError :=
  match f with
  | .named _ => .missing name
  | .ordered _ => .wrongLength index (s.owner ++ " with " ++ elements s.count)

/-- A field that may not be left out. -/
def required {α : Type} (s : Shape) (f : Fields) (index : Nat) (name : String) (read : Reader α) :
    Check α :=
  match f.find? index name with
  | none => .bad (.absent (s.absent f index name))
  | some (place, j) =>
    match read j with
    | .ok a => .ok a
    | .error e => .bad (.wrong place e)

/-- A field that stands for `absent` if it is left out. -/
def defaulted {α : Type} (f : Fields) (index : Nat) (name : String) (absent : α)
    (read : Reader α) :
    Check α :=
  match f.find? index name with
  | none => .ok absent
  | some (place, j) =>
    match read j with
    | .ok a => .ok a
    | .error e => .bad (.wrong place e)

/-- Finish a node: there may be no fields behind the last one. -/
def finish {α : Type} (s : Shape) (site : Site) (f : Fields) (c : Check α) :
    Except DecodeError α :=
  match c with
  | .bad t => .error t.error
  | .ok a =>
    match f with
    | .named _ => .ok a
    | .ordered items =>
      if items.length ≤ s.count then .ok a
      else
        .error (.wrongLength items.length
          (match site with
          | .outer => "fewer elements in array"
          | .inner => elements s.count ++ " in sequence"))

end Shape

/-! ## Leaves -/

def text : Reader String
  | .str s => .ok s
  | j => .error (.wrongType j "a string")

def truth : Reader Bool
  | .bool b => .ok b
  | j => .error (.wrongType j "a boolean")

def number : Reader Float
  | .int n => .ok (Float.ofInt n)
  | .float x => .ok x
  | j => .error (.wrongType j "f64")

def line : Reader Line
  | .int n =>
    if 0 ≤ n ∧ n < UInt32.size then .ok (UInt32.ofNat n.toNat)
    else .error (.wrongNumber n "u32")
  | j => .error (.wrongType j "u32")

def option {α : Type} (read : Reader α) : Reader (Option α)
  | .null => .ok none
  | j => (read j).map some

def list {α : Type} (read : Reader α) : Reader (List α)
  | .array items => items.mapM read
  | j => .error (.wrongType j "a sequence")

/-- An operator by its sign, which may also be the only key of an object. -/
def sign {α : Type} (known : List (String × α)) : Reader α := fun j =>
  let find (s : String) : Except DecodeError α :=
    match known.find? fun k => k.1 == s with
    | some k => .ok k.2
    | none => .error (.unknownTag s (known.map (·.1)))
  match j with
  | .str s => find s
  | .object [(s, content)] => do
    let op ← find s
    match content with
    | .null => return op
    | .object [] => return op
    | other => .error (.wrongType other "unit")
  | .object _ => .error .notSingleKey
  | other => .error (.wrongType other "string or map")

def binaryOp : Reader BinaryOp := sign (BinaryOp.all.map fun op => (op.sign, op))

def unaryOp : Reader UnaryOp := sign (UnaryOp.all.map fun op => (op.sign, op))

def assignOp : Reader AssignOp := sign (AssignOp.all.map fun op => (op.sign, op))

def fields (wanted : String) : Reader Fields
  | .object members => .ok (.named members)
  | .array items => .ok (.ordered items)
  | j => .error (.wrongType j wanted)

def tag (site : Site) (known : List String) (j : Json) : Except DecodeError String :=
  match j, site with
  | .str s, _ => if known.contains s then .ok s else .error (.unknownTag s known)
  | .int n, .inner =>
    if n < 0 then .error (.wrongType j "variant identifier")
    else
      match known[n.toNat]? with
      | some s => .ok s
      | none =>
        .error (.wrongNumber n ("variant index 0 <= i < " ++ toString known.length))
  | _, _ => .error (.wrongType j "variant identifier")

/-- The tag of a tagged node and its fields. -/
def tagged (site : Site) (wanted : String) (known : List String) :
    Reader (String × Fields)
  | .object members =>
    match Assoc.get? "t" members with
    | some t => do return (← tag site known t, .named (Assoc.erase "t" members))
    | none => .error (.missing "t")
  | .array (t :: rest) => do return (← tag site known t, .ordered rest)
  | .array [] => .error (.missing "t")
  | j => .error (.wrongType j wanted)

/-! ## Expressions -/

def exprTags : List String :=
  ["Num", "Bool", "Null", "String", "Var", "BinOp", "UnaryOp", "Struct", "Array", "List",
    "ProcedureCall", "NoOp"]

def attr : Reader (String × Line) := fun j => do
  let f ← fields "struct Attr" j
  let s : Shape := ⟨"struct Attr", 2⟩
  s.finish .inner f <|
    Prod.mk <$> s.required f 0 "name" text <*> Shape.defaulted f 1 "line" 0 line

/-- A node of this kind, made of its fields. -/
def variant {α : Type} (owner kind : String) (count : Nat) (f : Fields) (c : Shape → Check α) :
    Except DecodeError α :=
  let s : Shape := ⟨"struct variant " ++ owner ++ "::" ++ kind, count⟩
  s.finish .inner f (c s)

/-- An expression from its tag and fields, given a reader of the expressions in it. -/
def exprNode (sub : Reader Expr) (kind : String) (f : Fields) : Except DecodeError Expr :=
  let node (count : Nat) (c : Shape → Check Expr) := variant "Expr" kind count f c
  match kind with
  | "Num" => node 2 fun s =>
    Expr.num <$> s.required f 0 "v" number <*> Shape.defaulted f 1 "line" 0 line
  | "Bool" => node 2 fun s =>
    Expr.bool <$> s.required f 0 "v" truth <*> Shape.defaulted f 1 "line" 0 line
  | "Null" => node 1 fun _ => Expr.null <$> Shape.defaulted f 0 "line" 0 line
  | "String" => node 2 fun s =>
    Expr.string <$> s.required f 0 "v" text <*> Shape.defaulted f 1 "line" 0 line
  | "Var" => node 2 fun s =>
    Expr.var <$> s.required f 0 "name" text <*> Shape.defaulted f 1 "line" 0 line
  | "BinOp" => node 4 fun s =>
    Expr.binary <$> s.required f 0 "left" sub <*> s.required f 1 "op" binaryOp <*>
      s.required f 2 "right" sub <*> Shape.defaulted f 3 "line" 0 line
  | "UnaryOp" => node 3 fun s =>
    Expr.unary <$> s.required f 0 "op" unaryOp <*> s.required f 1 "operand" sub <*>
      Shape.defaulted f 2 "line" 0 line
  | "Struct" => node 3 fun s =>
    (fun object (a : String × Line) line => Expr.field object a.1 a.2 line) <$>
      s.required f 0 "object" sub <*> s.required f 1 "attr" attr <*>
      Shape.defaulted f 2 "line" 0 line
  | "Array" => node 3 fun s =>
    Expr.index <$> s.required f 0 "object" sub <*> s.required f 1 "index" sub <*>
      Shape.defaulted f 2 "line" 0 line
  | "List" => node 2 fun s =>
    Expr.list <$> s.required f 0 "items" (list sub) <*> Shape.defaulted f 1 "line" 0 line
  | "ProcedureCall" =>
    let s : Shape := ⟨"struct ProcedureCall", 3⟩
    s.finish .inner f <|
      Expr.call <$> s.required f 0 "name" text <*> Shape.defaulted f 1 "args" [] (list sub) <*>
        Shape.defaulted f 2 "line" 0 line
  | _ => node 1 fun _ => Expr.noop <$> Shape.defaulted f 0 "line" 0 line

/-- An expression, if it nests less deep than `fuel`. -/
def expr (fuel : Nat) (site : Site) (j : Json) : Except DecodeError Expr :=
  match fuel with
  -- not reached, as there is more fuel than the tree is deep
  | 0 => .error (.missing "t")
  | fuel + 1 => do
    let (kind, f) ← tagged site "internally tagged enum Expr" exprTags j
    exprNode (expr fuel .inner) kind f

/-! ## Statements and blocks -/

def stmtTags : List String :=
  ["Compound", "Assign", "Const", "Condition", "Cycle", "DoCycle", "Retry", "Label", "GoToCall",
    "SubCall", "Return", "Exit", "TryCatch", "Error", "Throw", "Delay", "Suspend", "Status",
    "DeclareWeb", "FunctionDecl", "ProcedureCall", "Include", "Input", "Comment", "Doc", "NoOp"]

def constBinding (value : Reader Expr) : Reader ConstBinding := fun j => do
  let f ← fields "struct ConstBinding" j
  let s : Shape := ⟨"struct ConstBinding", 2⟩
  s.finish .inner f <|
    ConstBinding.mk <$> s.required f 0 "name" text <*> s.required f 1 "value" value

/-- A block from its fields, given a reader of statements. -/
def blockFields (site : Site) (stmt : Reader Stmt) (f : Fields) : Except DecodeError Block :=
  let s : Shape := ⟨"struct Block", 3⟩
  s.finish site f <|
    Block.mk <$> s.required f 0 "body" (list stmt) <*> Shape.defaulted f 1 "line" 0 line <*>
      Shape.defaulted f 2 "end_line" 0 line

def blockOf (site : Site) (stmt : Reader Stmt) : Reader Block := fun j => do
  blockFields site stmt (← fields "struct Block" j)

/-- An arm of a condition, given readers of its parts. -/
def branchOf (test : Reader Expr) (block : Reader Block) : Reader Branch := fun j => do
  let f ← fields "struct Branch" j
  let s : Shape := ⟨"struct Branch", 2⟩
  s.finish .inner f <|
    Branch.mk <$> s.required f 0 "test" test <*> s.required f 1 "block" block

/-- A statement from its tag and fields, given readers of the expressions and statements in it. -/
def stmtNode (value : Reader Expr) (sub : Reader Stmt) (kind : String) (f : Fields) :
    Except DecodeError Stmt :=
  let node (count : Nat) (c : Shape → Check Stmt) := variant "Stmt" kind count f c
  let body : Reader Block := blockOf .inner sub
  match kind with
  | "Compound" => (blockFields .inner sub f).map Stmt.compound
  | "Assign" => node 4 fun s =>
    Stmt.assign <$> s.required f 0 "targets" (list value) <*>
      Shape.defaulted f 1 "op" .set assignOp <*> s.required f 2 "values" (list value) <*>
      s.required f 3 "line" line
  | "Const" => node 2 fun s =>
    Stmt.const <$> s.required f 0 "bindings" (list (constBinding value)) <*>
      s.required f 1 "line" line
  | "Condition" => node 3 fun s =>
    Stmt.condition <$> s.required f 0 "branches" (list (branchOf value body)) <*>
      Shape.defaulted f 1 "else_block" none (option body) <*> s.required f 2 "line" line
  | "Cycle" => node 3 fun s =>
    Stmt.cycle <$> s.required f 0 "test" value <*> s.required f 1 "body" body <*>
      s.required f 2 "line" line
  | "DoCycle" => node 3 fun s =>
    Stmt.doCycle <$> s.required f 0 "body" body <*> s.required f 1 "test" value <*>
      s.required f 2 "line" line
  | "Retry" => node 4 fun s =>
    Stmt.retry <$> s.required f 0 "attempts" value <*> s.required f 1 "body" body <*>
      Shape.defaulted f 2 "test" none (option value) <*> s.required f 3 "line" line
  | "Label" => node 2 fun s =>
    Stmt.label <$> s.required f 0 "name" text <*> s.required f 1 "line" line
  | "GoToCall" => node 2 fun s =>
    Stmt.goto <$> s.required f 0 "label" text <*> s.required f 1 "line" line
  | "SubCall" => node 2 fun s =>
    Stmt.gosub <$> s.required f 0 "label" text <*> s.required f 1 "line" line
  | "Return" => node 2 fun s =>
    Stmt.ret <$> Shape.defaulted f 0 "value" none (option value) <*> s.required f 1 "line" line
  | "Exit" => node 2 fun s =>
    Stmt.exit <$> Shape.defaulted f 0 "status" none (option value) <*> s.required f 1 "line" line
  | "TryCatch" => node 4 fun s =>
    Stmt.tryCatch <$> s.required f 0 "body" body <*>
      Shape.defaulted f 1 "catch_var" none (option text) <*> s.required f 2 "catch" body <*>
      s.required f 3 "line" line
  | "Error" => node 3 fun s =>
    Stmt.error <$> s.required f 0 "message" value <*>
      Shape.defaulted f 1 "code" none (option value) <*> s.required f 2 "line" line
  | "Throw" => node 2 fun s =>
    Stmt.throw <$> s.required f 0 "value" value <*> s.required f 1 "line" line
  | "Delay" => node 2 fun s =>
    Stmt.delay <$> s.required f 0 "duration" value <*> s.required f 1 "line" line
  | "Suspend" => node 1 fun s => Stmt.suspend <$> s.required f 0 "line" line
  | "Status" => node 2 fun s =>
    Stmt.status <$> s.required f 0 "text" value <*> s.required f 1 "line" line
  | "DeclareWeb" => node 6 fun s =>
    Stmt.declareWeb <$> s.required f 0 "name" text <*>
      Shape.defaulted f 1 "params" [] (list text) <*>
      Shape.defaulted f 2 "outputs" [] (list text) <*>
      Shape.defaulted f 3 "alias" none (option text) <*>
      Shape.defaulted f 4 "url" none (option value) <*> s.required f 5 "line" line
  | "FunctionDecl" => node 4 fun s =>
    Stmt.function <$> s.required f 0 "name" text <*>
      Shape.defaulted f 1 "params" [] (list text) <*> s.required f 2 "body" body <*>
      s.required f 3 "line" line
  | "ProcedureCall" =>
    let s : Shape := ⟨"struct ProcedureCall", 3⟩
    s.finish .inner f <|
      -- read as the expression is, so its line may be left out
      Stmt.call <$> s.required f 0 "name" text <*>
        Shape.defaulted f 1 "args" [] (list value) <*> Shape.defaulted f 2 "line" 0 line
  | "Include" => node 3 fun s =>
    Stmt.included <$> s.required f 0 "module" text <*> s.required f 1 "body" body <*>
      s.required f 2 "line" line
  | "Input" => node 2 fun s =>
    Stmt.input <$> s.required f 0 "name" text <*> s.required f 1 "line" line
  | "Comment" => node 2 fun s =>
    Stmt.comment <$> Shape.defaulted f 0 "text" "" text <*> s.required f 1 "line" line
  | "Doc" => node 2 fun s =>
    Stmt.doc <$> Shape.defaulted f 0 "text" "" text <*> s.required f 1 "line" line
  | _ => node 1 fun s => Stmt.noop <$> s.required f 0 "line" line

/-- A statement, if it nests less deep than `fuel`. -/
def stmt (fuel : Nat) (site : Site) (j : Json) : Except DecodeError Stmt :=
  match fuel with
  | 0 => .error (.missing "t")
  | fuel + 1 => do
    let (kind, f) ← tagged site "internally tagged enum Stmt" stmtTags j
    stmtNode (expr fuel .inner) (stmt fuel .inner) kind f

end Decode

namespace Expr

def ofJson (j : Json) : Except DecodeError Expr := Decode.expr (j.depth + 1) .outer j

end Expr

namespace Stmt

def ofJson (j : Json) : Except DecodeError Stmt := Decode.stmt (j.depth + 1) .outer j

end Stmt

namespace Block

def ofJson (j : Json) : Except DecodeError Block :=
  Decode.blockOf .outer (Decode.stmt (j.depth + 1) .outer) j

/-- The block of a whole script: a compound statement, or a block without a tag. The mistakes that
are reported are those of a block. -/
def rootOfJson (j : Json) : Except DecodeError Block :=
  match Stmt.ofJson j with
  | .ok (.compound block) => .ok block
  | _ => ofJson j

end Block

end Stepwise
