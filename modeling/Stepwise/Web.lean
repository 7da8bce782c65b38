import Stepwise.Scope
import Stepwise.Service
import Stepwise.Xml.Element

/-!
# Calls of declared web services

A call becomes a request to the host, its arguments named by the declared parameters. One answer can
then be taken apart into the declared outputs: the fields of a struct, or the elements of an XML
text.
-/

namespace Stepwise.Web

/-- The name of the argument at `index`; services declared without parameters number theirs. -/
def argName (signature : WebSignature) (index : Nat) : String :=
  match signature.params[index]? with
  | some name => name
  | none => "arg" ++ toString index

def request (calledAs : String) (signature : WebSignature) (args : List Value) : Request where
  service := signature.service
  calledAs := calledAs
  url := signature.url
  args := args.mapIdx fun i v => (argName signature i, v)

/-- Call a service. The number of arguments matters only if parameters are declared. -/
def invoke {σ : Type} (host : Host σ) (calledAs : String) (signature : WebSignature)
    (args : List Value) (world : σ) : Except Fault Value × σ :=
  if !signature.params.isEmpty && signature.params.length ≠ args.length then
    (.error (.wrongArgCount calledAs signature.params.length args.length), world)
  else
    match host.invoke (request calledAs signature args) world with
    | (.ok v, world) => (.ok v, world)
    | (.error e, world) => (.error (.service signature.service e.message), world)

/-- The output of a response with a given name, if it has one. -/
def outputs (response : Value) (names : List String) : List (Option Value) :=
  match response with
  | .struct fields => names.map fun name => Assoc.get? name fields
  | .str xml =>
    let texts := Xml.elementTexts (Xml.events xml)
    names.map fun name => (Assoc.get? name texts).map .str
  | _ => names.map fun _ => none

end Stepwise.Web
