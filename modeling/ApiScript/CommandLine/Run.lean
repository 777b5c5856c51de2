import ApiScript.CommandLine.Arguments
import ApiScript.Session.Resolution
import ApiScript.Source.Reading

/-! # Runs from the command line

A run starts a session over the variables of the process and resolves the sources in turn. Its exit
status counts the failures, up to 255, and is never zero when the run was aborted.
-/

namespace ApiScript

/-- How the program ends. -/
inductive Ending where
  | halted (h : Halt)
  | refused (message : String)
  /-- The sources redirect for ever. -/
  | unending
  | ran (arguments : Arguments) (fault : Option Fault) (session : Session)

/-- The exit status of a run with some failures. -/
def exitStatus (aborted : Bool) (failures : Nat) : Nat :=
  min 255 (if aborted then max 1 failures else failures)

namespace Ending

def status : Ending → Nat
  | .halted (.misuse _) => 2
  | .halted _ => 0
  | .refused _ => 1
  | .unending => 1
  | .ran _ fault session => exitStatus fault.isSome session.report

def report? (milliseconds : Nat) (timestamp : String) : Ending → Option Report
  | .ran arguments _ session =>
    some (Report.ofSession session arguments.sources milliseconds timestamp)
  | _ => none

def destination? : Ending → Option (String × ReportFormat)
  | .ran arguments _ _ =>
    arguments.reportDirectory.map fun directory =>
      (directory, arguments.reportFormat.getD .json)
  | _ => none

/-- The file that the run could not go on without, because it has not been read so far. -/
def awaitedFile? : Ending → Option String
  | .ran _ (some (.load source causes)) _ =>
    match Locator.ofText source with
    | .localPath path => if causes.contains FileFault.unread.message then some path else none
    | .remote _ => none
  | _ => none

end Ending

namespace CommandLine

def programName : String := "ravel"

def version : String := programName ++ " 0.1.0"

/-- How a process with some arguments and variables ends, when it finds some files and sends its
requests over some transport, following redirects to a depth. -/
def runOver (transport : List Request → Request → Except Trouble Response × Bool)
    (arguments : List String) (process : ProcessVariables) (files : Files)
    (depth : Nat := Session.redirectDepth) : Ending :=
  match Arguments.ofProcess arguments process with
  | .error h => .halted h
  | .ok a =>
    match a.settings with
    | .error t => .refused t.message
    | .ok settings =>
      match Session.start (Environment.ofProcess process) settings Plugins.standard with
      | .error f => .refused f.message
      | .ok session =>
        let host : Host := ⟨transport, Source.read files⟩
        match (Session.executeSources host a.sources depth).run.run session with
        | none => .unending
        | some (.ok (), session) => .ran a none session
        | some (.error f, session) => .ran a (some f) session

def run (arguments : List String) (process : ProcessVariables) (files : Files) : Ending :=
  runOver Host.unreachable arguments process files

end CommandLine

end ApiScript
