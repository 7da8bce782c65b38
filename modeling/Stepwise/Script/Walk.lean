import Stepwise.Script.Path

/-!
# Walking a script in the order of its text

`Block.statements` lists the statements of a unit with their positions: each one in front of what is
nested in it. `Block.functions` lists the functions that are declared anywhere in a block, also
inside the bodies of other functions. Labels and jumps are what a listing holds of them.
-/

namespace Stepwise

mutual

/-- The statements of a block at `path` and of all blocks nested in it, but not of function
bodies. -/
def Block.statements (path : BlockPath) : Block → List (StmtPath × Stmt)
  | .mk body _ _ => Stmt.listStatements path 0 body

def Stmt.listStatements (path : BlockPath) (index : Nat) : List Stmt → List (StmtPath × Stmt)
  | [] => []
  | s :: rest =>
    (⟨path, index⟩, s) :: s.nested ⟨path, index⟩ ++ Stmt.listStatements path
      (index + 1) rest

/-- The statements nested in the one at `place`. -/
def Stmt.nested (place : StmtPath) : Stmt → List (StmtPath × Stmt)
  | .compound block => block.statements (place.child .body)
  | .condition branches otherwise _ =>
    Branch.listStatements place 0 branches ++
      Block.optionStatements (place.child .otherwise) otherwise
  | .cycle _ body _ => body.statements (place.child .body)
  | .doCycle body _ _ => body.statements (place.child .body)
  | .retry _ body _ _ => body.statements (place.child .body)
  | .included _ body _ => body.statements (place.child .body)
  | .tryCatch body _ handler _ =>
    body.statements (place.child .body) ++ handler.statements (place.child .handler)
  | _ => []

def Block.optionStatements (path : BlockPath) : Option Block → List (StmtPath × Stmt)
  | some block => block.statements path
  | none => []

/-- The statements of the branches from `index` on. -/
def Branch.listStatements (place : StmtPath) (index : Nat) : List Branch → List (StmtPath × Stmt)
  | [] => []
  | .mk _ block :: rest =>
    block.statements (place.child (.branch index)) ++ Branch.listStatements place (index + 1) rest

end

/-- A function as it is declared. -/
structure FunctionDecl where
  name : String
  params : List String
  body : Block
  line : Line

mutual

/-- The functions declared in a block, each in front of those inside its body. -/
def Block.functions : Block → List FunctionDecl
  | .mk body _ _ => Stmt.listFunctions body

def Stmt.listFunctions : List Stmt → List FunctionDecl
  | [] => []
  | s :: rest => s.functions ++ Stmt.listFunctions rest

def Stmt.functions : Stmt → List FunctionDecl
  | .function name params body line => ⟨name, params, body, line⟩ :: body.functions
  | .compound block => block.functions
  | .condition branches otherwise _ =>
    Branch.listFunctions branches ++ Block.optionFunctions otherwise
  | .cycle _ body _ => body.functions
  | .doCycle body _ _ => body.functions
  | .retry _ body _ _ => body.functions
  | .included _ body _ => body.functions
  | .tryCatch body _ handler _ => body.functions ++ handler.functions
  | _ => []

def Block.optionFunctions : Option Block → List FunctionDecl
  | some block => block.functions
  | none => []

def Branch.listFunctions : List Branch → List FunctionDecl
  | [] => []
  | .mk _ block :: rest => block.functions ++ Branch.listFunctions rest

end

/-! ## Labels and jumps -/

structure LabelSite where
  name : String
  place : StmtPath
  line : Line

structure JumpSite where
  label : String
  line : Line

namespace Stmt

def labelSite? (place : StmtPath) : Stmt → Option LabelSite
  | .label name line => some ⟨name, place, line⟩
  | _ => none

def jumpSite? : Stmt → Option JumpSite
  | .goto name line => some ⟨name, line⟩
  | .gosub name line => some ⟨name, line⟩
  | _ => none

end Stmt

namespace Block

/-- The labels of a unit, in the order of the text. -/
def labelSites (b : Block) : List LabelSite :=
  (b.statements []).filterMap fun entry => entry.2.labelSite? entry.1

/-- The jumps of a unit, in the order of the text. -/
def jumpSites (b : Block) : List JumpSite :=
  (b.statements []).filterMap fun entry => entry.2.jumpSite?

end Block

end Stepwise
