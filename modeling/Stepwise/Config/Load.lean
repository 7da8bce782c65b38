import Stepwise.Config.EnvFile
import Stepwise.Config.Value
import Stepwise.Files
import Stepwise.Json.Parser
import Stepwise.Machine.Statement
import Stepwise.Toml.Document

/-!
# Configuration

What a run can be told from outside, from the weakest source to the strongest: the defaults, a file,
the environment, and the command line. The file is the one that is asked for, which then has to be
there, or `swodl.toml` if there is one. Variables count if they start with `SWODL_`; two underscores
divide the section from the key.
-/

namespace Stepwise

structure Config where
  options : Options
  mockPath : Option String
  filter : String

/-- What the command line says about the configuration. -/
structure ConfigRequest where
  file : Option String
  delayMultiplier : Option Float
  mockPath : Option String

inductive ConfigError where
  | notFound (file : String)
  | unknownFormat (file : String)
  | unreadable (reason : FileError)
  | malformed (file : String) (reason : Option String)
  | unsuitable (u : Unsuitable)
  | negativeDelay
  | noCalls

namespace ConfigError

/-- What went wrong, from the general to the particular. -/
def chain : ConfigError → List String
  | .notFound file => [sources, "configuration file \"" ++ file ++ "\" not found"]
  | .unknownFormat file =>
    [sources, "configuration file \"" ++ file ++ "\" is not of a registered file format"]
  | .unreadable reason => [sources, reason.message]
  | .malformed file reason => [sources, (reason.getD "TOML parse error") ++ " in " ++ file]
  | .unsuitable u => ["Invalid configuration", u.message]
  | .negativeDelay => ["engine.delay_multiplier must not be negative"]
  | .noCalls => ["engine.max_call_depth must be at least 1"]
where
  sources : String := "Failed to read configuration sources"

def summary (e : ConfigError) : String := e.chain.headD ""

end ConfigError

/-! ## Files -/

inductive ConfigFormat where
  | toml
  | json
  deriving Repr, DecidableEq

namespace ConfigFormat

def all : List ConfigFormat := [.toml, .json]

def ending : ConfigFormat → String
  | .toml => "toml"
  | .json => "json"

def ofPath? (path : String) : Option ConfigFormat :=
  all.find? fun format => Path.extension? path = some format.ending

/-- The entries of a file. A mark of byte order in front is not part of it. -/
def parse (format : ConfigFormat) (path text : String) :
    Except ConfigError (List (String × ConfigTree)) :=
  let origin := "/".intercalate (Path.components path)
  let text := match text.toList with
    | c :: rest => if c.toNat = 0xfeff then String.ofList rest else text
    | [] => text
  match format with
  | .toml =>
    match Toml.parse? text with
    | some document => .ok (ConfigTree.ofToml origin document).entries
    | none => .error (.malformed origin none)
  | .json =>
    match Json.parse text with
    | .error e => .error (.malformed origin (some e.message))
    | .ok (.object members) => .ok (ConfigTree.entriesOfJson origin members)
    | .ok document =>
      let got := (ConfigTree.ofJson origin document).describe
      .error (.malformed origin (some ("invalid type: " ++ got ++ ", expected a map")))

end ConfigFormat

namespace Config

/-- The first of these files that is there, with its text or the reason why it cannot be read. -/
def firstFile : List String → Reading (Option (String × Except FileError String))
  | [] => .done none
  | path :: rest =>
    .read path fun
      | .ok text => .done (some (path, .ok text))
      | .error e => if e.isFile then .done (some (path, .error e)) else firstFile rest

/-- The names that a file can have: the given one, or that with the ending of a format. -/
def candidates (name : String) : List String :=
  name :: ConfigFormat.all.map fun format => name ++ "." ++ format.ending

def find (name : String) : Reading (Except ConfigError (String × ConfigFormat × String)) := do
  match ← firstFile (candidates name) with
  | none => return .error (.notFound name)
  | some (path, text) =>
    match ConfigFormat.ofPath? path, text with
    | none, _ => return .error (.unknownFormat path)
    | some _, .error e => return .error (.unreadable e)
    | some format, .ok text => return .ok (path, format, text)

/-- The name of the file that is read if none is asked for. -/
def defaultName : String := "swodl"

/-- The entries of the configuration file. **Only a file that is asked for has to be there;** one
that is there has to be well formed. -/
def fileEntries (request : ConfigRequest) :
    Reading (Except ConfigError (List (String × ConfigTree))) := do
  match ← find (request.file.getD defaultName) with
  | .ok (path, format, text) => return format.parse path text
  | .error e => return if request.file.isSome then .error e else .ok []

/-! ## Environment -/

/-- What the name of a variable that counts starts with. -/
def variableStart : List Char := "swodl_".toList

/-- A whole number of 64 bits in decimal digits, with a sign allowed. -/
def wholeOfText? (s : String) : Option Int :=
  let (negative, ds) := match s.toList with
    | '+' :: rest => (false, rest)
    | '-' :: rest => (true, rest)
    | cs => (false, cs)
  let n := Number.natOfDigits 0 ds
  if ds.isEmpty || !ds.all Char.isDigit then none
  else if negative then (if n ≤ 0x8000000000000000 then some (-(n : Int)) else none)
  else if n < 0x8000000000000000 then some n
  else none

/-- The value of a variable: true or false, a number if the text reads as one, or text. -/
def scalarOfText (s : String) : Scalar :=
  let word := Text.lower s
  if word = "true" then .bool true
  else if word = "false" then .bool false
  else
    match wholeOfText? s, Number.ofText? s with
    | some n, _ => .int n
    | none, some x => .float x
    | none, none => .str s

def ofVariable? (name value : String) : Option (String × ConfigTree) :=
  let cs := (Text.lower name).toList
  if variableStart.isPrefixOf cs then
    let key := Text.replace (String.ofList (cs.drop variableStart.length)) "__" "."
    some (key, .leaf "the environment" (scalarOfText value))
  else none

def environmentEntries (env : Assoc String) : List (String × ConfigTree) :=
  env.filterMap fun v => ofVariable? v.1 v.2

/-! ## Sections -/

open ConfigTree in
def optionsOf (t : ConfigTree) : Except Unsuitable Options := do
  let t ← t.asSection "EngineConfig"
  let delayMultiplier ← t.field 0 "delay_multiplier" Options.default.delayMultiplier toFloat
  let strictOutputs ← t.field 1 "strict_output_params" Options.default.strictOutputs toBool
  let maxCallDepth ← t.field 2 "max_call_depth" Options.default.maxCallDepth toNat
  return { delayMultiplier, strictOutputs, maxCallDepth }

def mockPathOf (t : ConfigTree) : Except Unsuitable (Option String) := do
  let t ← t.asSection "ServicesConfig"
  t.field 0 "mock_path" none (ConfigTree.toOption ConfigTree.toText)

def defaultFilter : String := "info"

def filterOf (t : ConfigTree) : Except Unsuitable String := do
  let t ← t.asSection "LoggingConfig"
  t.field 0 "filter" defaultFilter ConfigTree.toText

/-- A configuration from a tree of values. Keys that have no meaning are not looked at. -/
def ofTree (t : ConfigTree) : Except Unsuitable Config := do
  let options ← t.field 0 "engine" Options.default optionsOf
  let mockPath ← t.field 1 "services" none mockPathOf
  let filter ← t.field 2 "logging" defaultFilter filterOf
  return { options, mockPath, filter }

/-- Put what the command line says over a configuration. -/
def withRequest (c : Config) (request : ConfigRequest) : Config :=
  let delayMultiplier := request.delayMultiplier.getD c.options.delayMultiplier
  { c with
    options := { c.options with delayMultiplier }
    mockPath := request.mockPath.or c.mockPath }

def check (c : Config) : Except ConfigError Config :=
  -- put this way round, "not a number" is refused as well
  if !(c.options.delayMultiplier ≥ 0.0) then .error .negativeDelay
  else if c.options.maxCallDepth = 0 then .error .noCalls
  else .ok c

def ofSources (file : List (String × ConfigTree)) (env : Assoc String) (request : ConfigRequest) :
    Except ConfigError Config :=
  let tree := ((ConfigTree.table []).mergeSource file).mergeSource (environmentEntries env)
  match ofTree tree with
  | .error u => .error (.unsuitable u)
  | .ok c => (c.withRequest request).check

/-- The environment with the first file of variables added, of those that have this name in the
directory and in `parents` directories above it. -/
def environment (parents : Nat) (env : Assoc String) : Reading (Assoc String) := do
  let above (n : Nat) : String := String.join (List.replicate n "../")
  match ← firstFile ((List.range (parents + 1)).map fun n => above n ++ ".env") with
  | some (_, .ok text) => return EnvFile.load text env
  -- a file of variables that cannot be read is passed over
  | _ => return env

def load (parents : Nat) (env : Assoc String) (request : ConfigRequest) :
    Reading (Except ConfigError Config) := do
  let env ← environment parents env
  match ← fileEntries request with
  | .error e => return .error e
  | .ok file => return ofSources file env request

end Config

end Stepwise
