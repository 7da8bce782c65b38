import Stepwise.Fault
import Stepwise.Number.Reader
import Stepwise.Text.Blank

/-!
# Operators on values

What the operators of the script language do once their operands are values, and how fields and
elements are read. The two logical operators take both operands here; that evaluation may leave the
second one out is a matter of expressions.
-/

namespace Stepwise.Value

/-! ## Casts -/

/-- The number a value converts to. Text is read as a number, blanks around it ignored. -/
def toNumber : Value → Except Fault Float
  | .num x => .ok x
  | .bool b => .ok (if b then 1.0 else 0.0)
  | .null => .ok 0.0
  | .str s =>
    match Number.ofText? (Text.trim s) with
    | some x => .ok x
    | none => .error (.typeError (.notNumeric s))
  | v => .error (.typeError (.notConvertible v.typeName))

def castFloat (v : Value) : Except Fault Value :=
  v.toNumber.map .num

/-- The whole part of the number. -/
def castInt (v : Value) : Except Fault Value :=
  v.toNumber.map fun x => .num (Number.trunc x)

/-! ## Operators -/

def operandFault (op : BinaryOp) (l r : Value) : Fault :=
  .typeError (.operands op l.typeName r.typeName)

/-- Numbers add, arrays are put together, and text takes the text of anything. -/
def add (l r : Value) : Except Fault Value :=
  match l, r with
  | .num x, .num y => .ok (.num (x + y))
  | .array xs, .array ys => .ok (.array (xs ++ ys))
  | .str s, _ => .ok (.str (s ++ r.text))
  | _, .str s => .ok (.str (l.text ++ s))
  | _, _ => .error (operandFault .add l r)

/-- The remainder that takes the sign of the divisor. -/
def modulo (x y : Float) : Float := x - y * Number.floor (x / y)

/-- An operator on two numbers. Only a quotient or a remainder by zero fails. -/
def arith (op : BinaryOp) (f : Float → Float → Except Fault Float) (l r : Value) :
    Except Fault Value :=
  match l, r with
  | .num x, .num y => (f x y).map .num
  | _, _ => .error (operandFault op l r)

def divide (f : Float → Float → Float) (x y : Float) : Except Fault Float :=
  if y == 0.0 then .error .divisionByZero else .ok (f x y)

/-- Numbers and texts have an order; "not a number" is in no relation to any. -/
def order (op : BinaryOp) (onNumbers : Float → Float → Bool)
    (onTexts : String → String → Bool) (l r : Value) : Except Fault Value :=
  match l, r with
  | .num x, .num y => .ok (.bool (onNumbers x y))
  | .str s, .str t => .ok (.bool (onTexts s t))
  | _, _ => .error (operandFault op l r)

def binary (op : BinaryOp) (l r : Value) : Except Fault Value :=
  match op with
  | .add => add l r
  | .sub => arith op (fun x y => .ok (x - y)) l r
  | .mul => arith op (fun x y => .ok (x * y)) l r
  | .div => arith op (divide fun x y => x / y) l r
  | .mod => arith op (divide modulo) l r
  | .eq => .ok (.bool (l == r))
  | .ne => .ok (.bool (!(l == r)))
  | .lt => order op (fun x y => x < y) (fun s t => s < t) l r
  | .gt => order op (fun x y => y < x) (fun s t => t < s) l r
  | .le => order op (fun x y => x ≤ y) (fun s t => !(t < s)) l r
  | .ge => order op (fun x y => y ≤ x) (fun s t => !(s < t)) l r
  | .and => .ok (.bool (l.isTruthy && r.isTruthy))
  | .or => .ok (.bool (l.isTruthy || r.isTruthy))

def unary (op : UnaryOp) (v : Value) : Except Fault Value :=
  match op with
  | .not => .ok (.bool (!v.isTruthy))
  | .neg =>
    match v with
    | .num x => .ok (.num (-x))
    | _ => .error (.typeError (.operand op v.typeName))
  | .plus =>
    match v with
    | .num x => .ok (.num x)
    | _ => .error (.typeError (.operand op v.typeName))
  | .int => castInt v
  | .float => castFloat v
  | .str => .ok (.str v.text)
  | .bool => .ok (.bool v.isTruthy)

/-! ## Fields and elements -/

/-- The field of a struct, or one of the two parts of an error. -/
def field (v : Value) (name : String) : Except Fault Value :=
  match v with
  | .struct fields =>
    match Assoc.get? name fields with
    | some w => .ok w
    | none => .error (.propertyNotFound name)
  | .error info =>
    if name = "code" then .ok (.str info.code)
    else if name = "message" then .ok (.str info.message)
    else .error (.propertyNotFound name)
  | _ => .error (.typeError (.noProperty name v.typeName))

/-- The index that a value stands for: a whole number, kept within 64 bits. -/
def toIndex (v : Value) : Except Fault Int :=
  match v with
  | .num x =>
    match Number.whole? x with
    | some _ => .ok (Number.toInt64 x)
    | none => .error (.typeError (.indexNotWhole v.text))
  | _ => .error (.typeError (.indexNotWhole v.text))

/-- The element of a list at an index, which counts from zero. -/
def elementAt {α : Type} (items : List α) (index : Int) : Except Fault α :=
  match if 0 ≤ index then items[index.toNat]? else none with
  | some a => .ok a
  | none => .error (.indexOutOfRange index items.length)

/-- An element of an array, a character of a text, or a field of a struct by a computed name. -/
def element (v index : Value) : Except Fault Value :=
  match v, index with
  | .struct _, .str name => v.field name
  | .array items, _ => do elementAt items (← index.toIndex)
  | .str s, _ => do
    let c ← elementAt s.toList (← index.toIndex)
    return .str (String.ofList [c])
  -- also a struct whose index is no text
  | _, _ => .error (.typeError (.notIndexable v.typeName))

end Stepwise.Value
