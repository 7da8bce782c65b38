import Stepwise.Script.Linked
import Stepwise.Script.Walk

/-!
# Programs

A program is a linked script with its tables: where the labels of each unit are, and the functions
by name. Units are the main program and the bodies of functions; positions are always positions in a
unit.
-/

namespace Stepwise

/-- What runs as a whole: the main program, or the body of a function. -/
inductive CodeUnit where
  | main
  | function (name : String)
  deriving Repr, DecidableEq

abbrev LabelTable := Assoc StmtPath

structure FunctionDef where
  name : String
  params : List String
  body : Block
  line : Line
  labels : LabelTable

structure Program where
  root : Block
  labels : LabelTable
  functions : Assoc FunctionDef
  warnings : List LinkWarning

namespace Program

def function? (p : Program) (name : String) : Option FunctionDef := Assoc.get? name p.functions

def unitRoot? (p : Program) : CodeUnit → Option Block
  | .main => some p.root
  | .function name => (p.function? name).map FunctionDef.body

def label? (p : Program) (u : CodeUnit) (name : String) : Option StmtPath :=
  match u with
  | .main => Assoc.get? name p.labels
  | .function f =>
    match p.function? f with
    | some d => Assoc.get? name d.labels
    | none => none

def block? (p : Program) (u : CodeUnit) (path : BlockPath) : Option Block :=
  match p.unitRoot? u with
  | some b => b.follow? path
  | none => none

def stmt? (p : Program) (u : CodeUnit) (place : StmtPath) : Option Stmt :=
  match p.unitRoot? u with
  | some b => b.stmtAt? place
  | none => none

end Program

end Stepwise
