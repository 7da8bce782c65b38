/-!
# Operators of the script language

Each operator has the sign it is written with, and a word by which messages call it.
-/

namespace Stepwise

inductive BinaryOp where
  | add | sub | mul | div | mod
  | eq | ne | lt | gt | le | ge
  | and | or
  deriving Repr, DecidableEq

namespace BinaryOp

/-- All of them, in the order in which messages list them. -/
def all : List BinaryOp :=
  [.add, .sub, .mul, .div, .mod, .eq, .ne, .lt, .gt, .le, .ge, .and, .or]

def sign : BinaryOp → String
  | .add => "+"
  | .sub => "-"
  | .mul => "*"
  | .div => "/"
  | .mod => "%"
  | .eq => "=="
  | .ne => "!="
  | .lt => "<"
  | .gt => ">"
  | .le => "<="
  | .ge => ">="
  | .and => "&&"
  | .or => "||"

def word : BinaryOp → String
  | .add => "Add"
  | .sub => "Sub"
  | .mul => "Mul"
  | .div => "Div"
  | .mod => "Mod"
  | .eq => "Eq"
  | .ne => "Ne"
  | .lt => "Lt"
  | .gt => "Gt"
  | .le => "Le"
  | .ge => "Ge"
  | .and => "And"
  | .or => "Or"

end BinaryOp

/-- Operators with one operand, casts included. -/
inductive UnaryOp where
  | not | neg | plus | int | float | str | bool
  deriving Repr, DecidableEq

namespace UnaryOp

def all : List UnaryOp := [.not, .neg, .plus, .int, .float, .str, .bool]

def sign : UnaryOp → String
  | .not => "!"
  | .neg => "-"
  | .plus => "+"
  | .int => "int"
  | .float => "float"
  | .str => "string"
  | .bool => "bool"

def word : UnaryOp → String
  | .not => "Not"
  | .neg => "Neg"
  | .plus => "Plus"
  | .int => "Int"
  | .float => "Float"
  | .str => "Str"
  | .bool => "Bool"

end UnaryOp

/-- `=` and the operators that combine the old value with the new one. -/
inductive AssignOp where
  | set | add | sub | mul | div | mod
  deriving Repr, DecidableEq

namespace AssignOp

def all : List AssignOp := [.set, .add, .sub, .mul, .div, .mod]

def sign : AssignOp → String
  | .set => "="
  | .add => "+="
  | .sub => "-="
  | .mul => "*="
  | .div => "/="
  | .mod => "%="

/-- The operator that combines the two values, none for a plain assignment. -/
def binary? : AssignOp → Option BinaryOp
  | .set => none
  | .add => some .add
  | .sub => some .sub
  | .mul => some .mul
  | .div => some .div
  | .mod => some .mod

end AssignOp

end Stepwise
