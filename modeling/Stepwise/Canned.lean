import Stepwise.Service
import Stepwise.Toml.Document

/-!
# Canned answers from a file

A TOML file lists the services under `services`. Each has a `response`, or an `error` which wins
over it; with neither, the answer is null. An entry can also be an array of the two in this order.
-/

namespace Stepwise.CannedTable

def answerOf (response : Option Toml) (failure : Option Toml) : Option Canned :=
  match failure, response with
  | some (.str reason), _ => some (.failure reason)
  | some _, _ => none
  | none, some v => some (.response (Value.ofJson v.toJson))
  | none, none => some (.response .null)

def ofItem? : Toml → Option Canned
  | .table entries => answerOf (Assoc.get? "response" entries) (Assoc.get? "error" entries)
  | .array items => answerOf items[0]? items[1]?
  | .datetime _ => answerOf none none
  | _ => none

def ofToml? (document : Toml) : Option CannedTable :=
  match document.lookup? "services" with
  | none => some []
  | some (.table entries) => do
    let canned ← entries.mapM fun entry => (ofItem? entry.2).map fun c => (entry.1, c)
    return Assoc.ofList canned
  | some _ => none

def ofText? (text : String) : Option CannedTable := do
  ofToml? (← Toml.parse? text)

/-- What a text that gives no answers is told. -/
def parseFailure : String := "Failed to parse mock TOML"

end Stepwise.CannedTable
