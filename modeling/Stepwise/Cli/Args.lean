import Stepwise.Config.Load
import Stepwise.Script.Basic

/-!
# Arguments

The command line is read from left to right. Options may stand before and after what they belong to;
long ones take their value behind an equals sign or as the next argument, short ones also right
behind the letter. **What cannot be understood is refused as a whole**, and asking for help ends the
reading where it stands.
-/

namespace Stepwise.Cli

structure RunArgs where
  program : String
  inputs : List String
  breakpoints : List Line
  mock : Option String
  delayMultiplier : Option Float
  quiet : Bool

inductive Command where
  | run (args : RunArgs)
  | check (program : String)

structure Args where
  config : Option String
  command : Command

inductive Topic where
  | general
  | run
  | check
  | help
  deriving Repr, DecidableEq

inductive Parsed where
  | args (a : Args)
  | help (topic : Topic)
  | usage

/-! ## Options -/

inductive Opt where
  | config
  | input
  | breakpoint
  | mock
  | delayMultiplier
  | quiet
  | help
  deriving Repr, DecidableEq

namespace Opt

def long : Opt → String
  | .config => "config"
  | .input => "input"
  | .breakpoint => "break"
  | .mock => "mock"
  | .delayMultiplier => "delay-multiplier"
  | .quiet => "quiet"
  | .help => "help"

def short? : Opt → Option Char
  | .input => some 'i'
  | .breakpoint => some 'b'
  | .quiet => some 'q'
  | .help => some 'h'
  | _ => none

def takesValue : Opt → Bool
  | .quiet => false
  | .help => false
  | _ => true

/-- The options in front of the command, and those of a command. -/
def allowed : Topic → List Opt
  | .run => [.config, .input, .breakpoint, .mock, .delayMultiplier, .quiet, .help]
  | _ => [.config, .help]

end Opt

structure Given where
  config : Option String
  program : Option String
  /-- The last one first. -/
  inputs : List String
  /-- The last one first. -/
  breakpoints : List Line
  mock : Option String
  delayMultiplier : Option Float
  quiet : Bool

inductive Stop where
  | help
  | usage

namespace Given

def none : Given := ⟨.none, .none, [], [], .none, .none, false⟩

def lineOfText? (s : String) : Option Line :=
  match Config.wholeOfText? s with
  | some n => if 0 ≤ n ∧ n < 0x100000000 then some (UInt32.ofNat n.toNat) else Option.none
  | Option.none => Option.none

def pathOfText? (s : String) : Option String := if s.isEmpty then Option.none else some s

/-- Set what can be given once. -/
def once {α : Type} (old : Option α) (new : Option α) : Except Stop (Option α) :=
  match old, new with
  | Option.none, some a => .ok (some a)
  | _, _ => .error .usage

def withValue (g : Given) (opt : Opt) (value : String) : Except Stop Given :=
  match opt with
  | .config => (once g.config (some value)).map fun config => { g with config }
  | .input => .ok { g with inputs := value :: g.inputs }
  | .breakpoint =>
    match lineOfText? value with
    | some line => .ok { g with breakpoints := line :: g.breakpoints }
    | Option.none => .error .usage
  | .mock => (once g.mock (pathOfText? value)).map fun mock => { g with mock }
  | .delayMultiplier =>
    (once g.delayMultiplier (Number.ofText? value)).map fun delayMultiplier =>
      { g with delayMultiplier }
  | .quiet => .error .usage
  | .help => .error .usage

def withFlag (g : Given) (opt : Opt) : Except Stop Given :=
  match opt with
  | .quiet => if g.quiet then .error .usage else .ok { g with quiet := true }
  | .help => .error .help
  | _ => .error .usage

/-- Take an argument that belongs to no option: the program of a command. -/
def withPlain (g : Given) (arg : String) : Except Stop Given :=
  (once g.program (pathOfText? arg)).map fun program => { g with program }

end Given

/-! ## Reading -/

inductive Token where
  /-- Only plain arguments follow. -/
  | divider
  | long (name : String) (value : Option String)
  | short (letters : List Char)
  | plain

namespace Token

def ofArg (arg : String) : Token :=
  match arg.toList with
  | ['-'] => .plain
  | ['-', '-'] => .divider
  | '-' :: '-' :: cs =>
    let name := String.ofList (cs.takeWhile (· ≠ '='))
    match cs.dropWhile (· ≠ '=') with
    | _ :: value => .long name (some (String.ofList value))
    | [] => .long name none
  | '-' :: cs => .short cs
  | _ => .plain

end Token

/-- Read a group of short options. The result tells which option still waits for its value. -/
def shortOptions (topic : Topic) (g : Given) : List Char → Except Stop (Given × Option Opt)
  | [] => .ok (g, none)
  | c :: rest =>
    match (Opt.allowed topic).find? fun opt => opt.short? = some c with
    | none => .error .usage
    | some opt =>
      if opt.takesValue then
        match rest with
        | [] => .ok (g, some opt)
        | '=' :: value => (g.withValue opt (String.ofList value)).map fun g => (g, none)
        | value => (g.withValue opt (String.ofList value)).map fun g => (g, none)
      else
        match g.withFlag opt with
        | .ok g => shortOptions topic g rest
        | .error stop => .error stop

/-- Read a long option. The result tells whether it still waits for its value. -/
def longOption (topic : Topic) (g : Given) (name : String) (value : Option String) :
    Except Stop (Given × Option Opt) :=
  match (Opt.allowed topic).find? fun opt => opt.long = name with
  | none => .error .usage
  | some opt =>
    match value with
    | some value => (g.withValue opt value).map fun g => (g, none)
    | none => if opt.takesValue then .ok (g, some opt) else (g.withFlag opt).map fun g => (g, none)

/-- Read the options in front of the command. The result holds the arguments behind them. -/
def leading (g : Given) (waiting : Option Opt) : List String → Except Stop (Given × List String)
  | [] => if waiting.isSome then .error .usage else .ok (g, [])
  | arg :: rest =>
    match waiting, Token.ofArg arg with
    | some opt, .plain =>
      match g.withValue opt arg with
      | .ok g => leading g none rest
      | .error stop => .error stop
    | some _, _ => .error .usage
    | none, .plain => .ok (g, arg :: rest)
    | none, .divider => .error .usage
    | none, .long name value =>
      match longOption .general g name value with
      | .ok (g, waiting) => leading g waiting rest
      | .error stop => .error stop
    | none, .short letters =>
      match shortOptions .general g letters with
      | .ok (g, waiting) => leading g waiting rest
      | .error stop => .error stop

def commandArgs (topic : Topic) (g : Given) (waiting : Option Opt) :
    List String → Except Stop Given
  | [] => if waiting.isSome then .error .usage else .ok g
  | arg :: rest =>
    match waiting, Token.ofArg arg with
    | some opt, .plain =>
      match g.withValue opt arg with
      | .ok g => commandArgs topic g none rest
      | .error stop => .error stop
    | some _, _ => .error .usage
    | none, .plain =>
      match g.withPlain arg with
      | .ok g => commandArgs topic g none rest
      | .error stop => .error stop
    | none, .divider => rest.foldlM Given.withPlain g
    | none, .long name value =>
      match longOption topic g name value with
      | .ok (g, waiting) => commandArgs topic g waiting rest
      | .error stop => .error stop
    | none, .short letters =>
      match shortOptions topic g letters with
      | .ok (g, waiting) => commandArgs topic g waiting rest
      | .error stop => .error stop

def topic? (name : String) : Option Topic :=
  if name = "run" then some .run
  else if name = "check" then some .check
  else if name = "help" then some .help
  else none

/-- A command from what was given. Its program has to be. -/
def commandOf? (topic : Topic) (g : Given) : Option Command :=
  match topic, g.program with
  | .run, some program =>
    some (.run ⟨program, g.inputs.reverse, g.breakpoints.reverse, g.mock,
      g.delayMultiplier, g.quiet⟩)
  | .check, some program => some (.check program)
  | _, _ => none

def helpTopic : List String → Parsed
  | [] => .help .general
  | [name] =>
    match topic? name with
    | some topic => .help topic
    | none => .usage
  | _ => .usage

/-- Read the arguments. A configuration file that is given behind the command wins over one in front
of it. -/
def parse (args : List String) : Parsed :=
  match leading .none none args with
  | .error .help => .help .general
  | .error .usage => .usage
  | .ok (_, []) => .usage
  | .ok (front, name :: rest) =>
    match topic? name with
    | some .help => helpTopic rest
    | some topic =>
      match commandArgs topic .none none rest with
      | .error .help => .help topic
      | .error .usage => .usage
      | .ok g =>
        match commandOf? topic g with
        | some command => .args ⟨g.config.or front.config, command⟩
        | none => .usage
    | none => .usage

end Stepwise.Cli
