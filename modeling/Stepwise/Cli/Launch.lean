import Stepwise.Canned
import Stepwise.Cli.Help
import Stepwise.Cli.Job
import Stepwise.Program.Link

/-!
# From arguments to a job

What the command line does before a script runs: load the configuration, the script and the canned
answers, and read the inputs, in this order. The first thing that fails ends it, and is reported
with all that led to it.
-/

namespace Stepwise.Cli

structure Surroundings where
  env : Assoc String
  /-- How many directories there are above the one it works in. -/
  parents : Nat
  /-- The time that scripts are told. -/
  clock : String

inductive LaunchError where
  | config (e : ConfigError)
  | unreadableProgram (path : String) (reason : FileError)
  | badProgram (path : String) (e : ProgramError)
  | unreadableMock (path : String) (reason : FileError)
  | badMock (path : String)
  | inputWithoutValue (raw : String)
  /-- An input with nothing in front of the equals sign. -/
  | inputWithoutName (raw : String)

namespace LaunchError

/-- What went wrong, from the general to the particular. -/
def chain : LaunchError → List String
  | .config e => "Failed to load configuration" :: e.chain
  | .unreadableProgram path reason => ["Failed to read program " ++ path, reason.message]
  | .badProgram path e => ["Failed to load program " ++ path, e.message, e.reason]
  | .unreadableMock path reason => ["Failed to read mock file " ++ path, reason.message]
  | .badMock path => ["Invalid mock file " ++ path, CannedTable.parseFailure]
  | .inputWithoutValue raw => ["Invalid input '" ++ raw ++ "': expected NAME=VALUE"]
  | .inputWithoutName raw => ["Invalid input '" ++ raw ++ "': empty name"]

def message (e : LaunchError) : String := "Error: " ++ ": ".intercalate e.chain

end LaunchError

structure Launch where
  actions : List Action
  next : Continuation

namespace Launch

def failed (actions : List Action) (e : LaunchError) : Launch :=
  ⟨actions ++ [.err e.message], .exit 1⟩

end Launch

def loadProgram (path : String) : Reading (Except LaunchError Program) := do
  match ← Reading.file path with
  | .error e => return .error (.unreadableProgram path e)
  | .ok text =>
    match Program.ofText text with
    | .ok p => return .ok p
    | .error e => return .error (.badProgram path e)

/-- The host that gives the canned answers of a file; without a file, no service answers. -/
def loadHost (clock : String) : Option String → Reading (Except LaunchError (Host HostLog))
  | none => return .ok (Host.null clock)
  | some path => do
    match ← Reading.file path with
    | .error e => return .error (.unreadableMock path e)
    | .ok text =>
      match CannedTable.ofText? text with
      | some table => return .ok (table.host clock)
      | none => return .error (.badMock path)

/-- An input `NAME=VALUE`. The value is JSON if it reads as such, else text. -/
def parseInput (raw : String) : Except LaunchError (String × Value) :=
  let cs := raw.toList
  match cs.dropWhile (· ≠ '=') with
  | [] => .error (.inputWithoutValue raw)
  | _ :: value =>
    let name := String.ofList (cs.takeWhile (· ≠ '='))
    let value := String.ofList value
    if name.isEmpty then .error (.inputWithoutName raw)
    else
      match Json.parse value with
      | .ok j => .ok (name, Value.ofJson j)
      | .error _ => .ok (name, .str value)

def launchRun (around : Surroundings) (config : Option String) (args : RunArgs) :
    Reading Launch := do
  match ← Config.load around.parents around.env ⟨config, args.delayMultiplier, args.mock⟩ with
  | .error e => return .failed [] (.config e)
  | .ok config =>
    match ← loadProgram args.program with
    | .error e => return .failed [] e
    | .ok program =>
      -- from here on the warnings are printed, also if the launch fails
      let warnings := program.warnings.map fun w => Action.err ("warning: " ++ w.message)
      match ← loadHost around.clock config.mockPath with
      | .error e => return .failed warnings e
      | .ok host =>
        match args.inputs.mapM parseInput with
        | .error e => return .failed warnings e
        | .ok inputs =>
          let machine := Machine.new (Scope.ofInputs (Assoc.ofList inputs)) HostLog.empty
          let session := (Session.new machine args.breakpoints ⟨none, none⟩).start
          return ⟨warnings,
            .more ⟨⟨program, config.options, host⟩, session, args.quiet⟩⟩

/-- Report what linking finds out about a script. -/
def checkProgram (path : String) : Reading Launch := do
  match ← loadProgram path with
  | .error e => return .failed [] e
  | .ok program =>
    let version := Action.out ("Version: " ++ program.version)
    if program.warnings.isEmpty then return ⟨[version, .out "✓ No diagnostics"], .exit 0⟩
    else
      let found := "Found " ++ toString program.warnings.length ++ " diagnostic(s):"
      let lines := program.warnings.map fun w => Action.out ("  " ++ w.message)
      let code := if program.warnings.any LinkWarning.isFatal then 1 else 0
      return ⟨[version, .out found, .out ""] ++ lines, .exit code⟩

def usageCode : Nat := 2

def launch (around : Surroundings) (parsed : Parsed) : Reading Launch :=
  match parsed with
  | .usage => .done ⟨Topic.general.lines.map .err, .exit usageCode⟩
  | .help topic => .done ⟨topic.lines.map .out, .exit 0⟩
  | .args ⟨config, .run args⟩ => launchRun around config args
  | .args ⟨_, .check program⟩ => checkProgram program

/-! ## Transcripts -/

/-- All that a command prints, and its code. -/
structure Transcript where
  out : List String
  err : List String
  /-- None if the limit was reached before the end. -/
  code : Option Nat

namespace Transcript

def ofActions (actions : List Action) (code : Option Nat) : Transcript where
  out := actions.filterMap fun
    | .out line => some line
    | _ => none
  err := actions.filterMap fun
    | .err line => some line
    | _ => none
  code

end Transcript

/-- Run a command with these files, for at most `limit` statements. -/
def transcript (around : Surroundings) (files : String → Except FileError String) (limit : Nat)
    (parsed : Parsed) : Transcript :=
  match (launch around parsed).run files with
  | ⟨actions, .exit code⟩ => .ofActions actions (some code)
  | ⟨actions, .more job⟩ =>
    let (rest, code) := job.run limit
    .ofActions (actions ++ rest) code

end Stepwise.Cli
