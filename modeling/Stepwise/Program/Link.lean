import Stepwise.Digest
import Stepwise.Json.Parser
import Stepwise.Json.Printer
import Stepwise.Program.Basic
import Stepwise.Script.Decode
import Stepwise.Script.Encode

/-!
# Linking

Makes a program of the tree of a script. The first of several labels of one name in a unit is the
one that counts, the last of several functions of one name, and the labels of a function go with it.
Linking never fails; it only warns.
-/

namespace Stepwise

namespace LabelTable

/-- The table of labels in the order of the text: of two with one name the first counts. -/
def ofSites (sites : List LabelSite) : LabelTable :=
  sites.foldl
    (fun table site =>
      if Assoc.contains site.name table then table else Assoc.put site.name site.place table)
    []

/-- A warning for every label whose name was already seen. -/
def duplicates (seen : List String) : List LabelSite → List LinkWarning
  | [] => []
  | site :: rest =>
    if seen.contains site.name then
      .duplicateLabel site.line site.name :: duplicates seen rest
    else duplicates (site.name :: seen) rest

/-- A warning for every jump to a label that is not in the table. -/
def undefined (table : LabelTable) (jumps : List JumpSite) : List LinkWarning :=
  (jumps.filter fun j => !Assoc.contains j.label table).map fun j =>
    .undefinedLabel j.line j.label

end LabelTable

namespace FunctionDef

def ofDecl (d : FunctionDecl) : FunctionDef where
  name := d.name
  params := d.params
  body := d.body
  line := d.line
  labels := LabelTable.ofSites d.body.labelSites

end FunctionDef

inductive ProgramError where
  | syntactic (e : Json.ParseError)
  | decoding (e : DecodeError)

namespace ProgramError

def reason : ProgramError → String
  | .syntactic e => e.message
  | .decoding e => e.message

def message (e : ProgramError) : String := "Invalid program JSON: " ++ e.reason

end ProgramError

namespace Program

def link (script : Block) : Program :=
  let root := script.linked
  let decls := root.functions
  let functions := Assoc.ofList (decls.map fun d => (d.name, FunctionDef.ofDecl d))
  let labels := LabelTable.ofSites root.labelSites
  { root
    labels
    functions
    warnings :=
      -- repeated labels are looked for in all functions, jumps only in those that are not replaced
      script.unknownEscapes ++
        (decls.flatMap fun d => LabelTable.duplicates [] d.body.labelSites) ++
        LabelTable.duplicates [] root.labelSites ++
        labels.undefined root.jumpSites ++
        functions.flatMap fun entry => entry.2.labels.undefined entry.2.body.jumpSites }

def ofText (text : String) : Except ProgramError Program :=
  match Json.parse text with
  | .error e => .error (.syntactic e)
  | .ok j =>
    match Block.rootOfJson j with
    | .error e => .error (.decoding e)
    | .ok script => .ok (link script)

/-- The version of a program: the digest of the canonical text of its linked tree. -/
def version (p : Program) : String := Digest.ofText p.root.toJson.render

end Program

end Stepwise
