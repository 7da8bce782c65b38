import Std.Time
import Stepwise.Cli.Launch

/-!
# Command line

The outer layer: it reads files, prints, sleeps, and waits for the Enter key. What is printed, and
in which order things are done, is decided by `Stepwise.Cli.launch` and `Stepwise.Cli.Job.step`.
-/

namespace Stepwise.Cli

def readFile (path : String) : IO (Except FileError String) := do
  try
    match String.fromUTF8? (← IO.FS.readBinFile path) with
    | some text => return .ok text
    | none => return .error .notText
  catch
    | .noFileOrDirectory .. => return .error .notFound
    | .inappropriateType _ code _ =>
      return .error (if code = 21 then .isDirectory else .notDirectory)
    | e => return .error (.other (toString e))

/-- Answer the questions of a tree from the disk. -/
def answerFromDisk {α : Type} : Reading α → IO α
  | .done a => return a
  | .read path next => do
    let text ← readFile path
    answerFromDisk (next text)

/-- The variables of the environment, each a name and a value divided by an equals sign. -/
def environmentVariables : IO (Assoc String) := do
  match ← readFile "/proc/self/environ" with
  | .error _ => return []
  | .ok text =>
    let pairs := (Text.split text "\x00").filterMap fun entry =>
      let cs := entry.toList
      match cs.dropWhile (· ≠ '=') with
      | _ :: value => some (String.ofList (cs.takeWhile (· ≠ '=')), String.ofList value)
      | [] => none
    return Assoc.ofList pairs

def currentTime : IO String := do
  let time := Std.Time.PlainDateTime.ofWallTime ((← Std.Time.Timestamp.now).toWallTime .zero)
  return time.format "uuuu-MM-dd'T'HH:mm:ss.SSSSSSSSS" ++ "+00:00"

def perform : Action → IO Unit
  | .out line => do
    IO.println line
    (← IO.getStdout).flush
  | .err line => IO.eprintln line
  | .wait ms => IO.sleep (UInt32.ofNat (min ms 0xffffffff))
  | .enter => do
    let _ ← (← IO.getStdin).getLine

partial def follow : Continuation → IO UInt32
  | .exit code => return UInt32.ofNat code
  | .more job => do
    let (actions, next) := (job.atTime (← currentTime)).step
    actions.forM perform
    follow next

end Stepwise.Cli

open Stepwise Cli in
def main (args : List String) : IO UInt32 := do
  let directory ← IO.currentDir
  let around : Surroundings :=
    ⟨← environmentVariables, (Path.components directory.toString).length, ← currentTime⟩
  let launched ← answerFromDisk (launch around (parse args))
  launched.actions.forM perform
  follow launched.next
