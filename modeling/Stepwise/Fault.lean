import Stepwise.Json.Error
import Stepwise.Script.Operator
import Stepwise.Value.Basic

/-!
# Faults

What can go wrong while a script runs. A fault has a code, by which scripts tell faults apart, and a
message. A script's own `Error` and `Throw` statements raise values, which travel as `thrown`. A
fault that leaves its statement is a `Failure`: it carries the line of the statement.
-/

namespace Stepwise

abbrev Line := UInt32

/-- A value of a kind that is of no use where it stands. Kinds are given by their names. -/
inductive Mismatch where
  | operands (op : BinaryOp) (left right : String)
  | operand (op : UnaryOp) (got : String)
  | noProperty (name got : String)
  | notIndexable (got : String)
  | notSettable (name got : String)
  /-- The index as it reads in text. -/
  | indexNotWhole (index : String)
  /-- A built-in wants `wanted`, an article included. -/
  | argument (function wanted got : String)
  | notNumeric (text : String)
  | notConvertible (got : String)
  | notJson (error : Json.ParseError)
  | notTarget (line : Line)
  | attempts (got : String)
  | milliseconds (got : String)
  | delay (milliseconds : Float)

namespace Mismatch

def message : Mismatch → String
  | .operands op left right =>
    "Unsupported operands for " ++ op.word ++ ": " ++ left ++ " and " ++ right
  | .operand op got => "Unary " ++ op.word ++ " expects a number, got " ++ got
  | .noProperty name got => s!"Cannot access property '{name}' on {got} value"
  | .notIndexable got => s!"Cannot index into {got} value"
  | .notSettable name got => s!"Cannot set property '{name}' on {got} value"
  | .indexNotWhole index => s!"Index must be an integer, got {index}"
  | .argument function wanted got => s!"{function} expects {wanted}, got {got}"
  | .notNumeric text => s!"Cannot convert '{text}' to a number"
  | .notConvertible got => s!"Cannot convert {got} to a number"
  | .notJson error => "Invalid JSON: " ++ error.message
  | .notTarget line => s!"Invalid assignment target on line {line}"
  | .attempts got => s!"Retry expects a number of attempts, got {got}"
  | .milliseconds got => s!"Delay expects milliseconds, got {got}"
  | .delay ms => "Invalid delay " ++ Number.text ms

end Mismatch

inductive Fault where
  | undefinedVariable (name : String)
  | assignToConstant (name : String)
  | undefinedLabel (name : String)
  | missingOutputParameter (name param : String)
  | undefinedFunction (name : String)
  | wrongArgCount (function : String) (expected got : Nat)
  | typeError (mismatch : Mismatch)
  | divisionByZero
  | indexOutOfRange (index : Int) (len : Nat)
  | propertyNotFound (name : String)
  | assignmentMismatch (targets values : Nat)
  | callDepthExceeded (limit : Nat)
  | service (name reason : String)
  /-- A value that the script raised itself. -/
  | thrown (value : Value)
  | cancelled

namespace Fault

/-- The code of an error that a script raises without one. -/
def userError : String := "USER_ERROR"

def code : Fault → String
  | .undefinedVariable _ => "UndefinedVariable"
  | .assignToConstant _ => "AssignToConstant"
  | .undefinedLabel _ => "UndefinedLabel"
  | .missingOutputParameter .. => "MissingOutputParameter"
  | .undefinedFunction _ => "UndefinedFunction"
  | .wrongArgCount .. => "WrongArgCount"
  | .typeError _ => "TypeError"
  | .divisionByZero => "DivisionByZero"
  | .indexOutOfRange .. => "IndexOutOfRange"
  | .propertyNotFound _ => "PropertyNotFound"
  | .assignmentMismatch .. => "AssignmentMismatch"
  | .callDepthExceeded _ => "CallDepthExceeded"
  | .service .. => "ServiceError"
  | .thrown (.error info) => info.code
  | .thrown _ => userError
  | .cancelled => "Cancelled"

def message : Fault → String
  | .undefinedVariable name => s!"Undefined variable '{name}'"
  | .assignToConstant name => s!"Cannot assign to constant '{name}'"
  | .undefinedLabel name => s!"Undefined label '{name}'"
  | .missingOutputParameter name param =>
    s!"Output parameter '{param}' missing in response of '{name}'"
  | .undefinedFunction name => s!"Undefined function '{name}'"
  | .wrongArgCount function expected got =>
    s!"{function} expects {expected} argument(s), got {got}"
  | .typeError mismatch => mismatch.message
  | .divisionByZero => "Division by zero"
  | .indexOutOfRange index len => s!"Index {index} out of range for length {len}"
  | .propertyNotFound name => s!"Property '{name}' not found"
  | .assignmentMismatch targets values =>
    s!"Cannot assign {values} value(s) to {targets} target(s)"
  | .callDepthExceeded limit => s!"Call depth limit of {limit} exceeded"
  | .service name reason => s!"Service '{name}' failed: {reason}"
  | .thrown (.error info) => info.message
  | .thrown value => value.text
  | .cancelled => "Execution cancelled"

/-- A terminal fault ends the run whatever handlers there are. -/
def isTerminal : Fault → Bool
  | .cancelled => true
  | _ => false

/-- The value that a `catch` block sees. -/
def payload : Fault → Value
  | .thrown value => value
  | fault => .error ⟨fault.code, fault.message⟩

end Fault

/-- A fault with the line of the statement that raised it. -/
structure Failure where
  line : Line
  fault : Fault

namespace Failure

def message (f : Failure) : String :=
  "Error on line " ++ toString f.line ++ ": " ++ f.fault.message

end Failure

end Stepwise
