import ApiScript.CommandLine.Help
import Std.Time.DateTime.Timestamp

/-! # The program

Reads the variables of the process and the files that a run asks for, shows what the run came to and
saves the report.
-/

open ApiScript

namespace ApiScript.Program

def entriesOf (block : List UInt8) : List (List UInt8) :=
  let (entries, last) := block.foldr (fun b (entries, entry) =>
    if b == 0 then (entry :: entries, []) else (entries, b :: entry)) ([], [])
  last :: entries

/-- The variables in a block: in an entry, the name ends at the first equals sign but for one at the
very start. -/
def variablesOf (block : List UInt8) : ProcessVariables :=
  (entriesOf block).filterMap fun entry =>
    match entry with
    | [] => none
    | first :: rest =>
      match rest.dropWhile (· != 61) with
      | [] => none
      | _ :: value =>
        some (⟨(first :: rest.takeWhile (· != 61)).toArray⟩, ⟨value.toArray⟩)

def readVariables : IO ProcessVariables := do
  return variablesOf (← IO.FS.readBinFile "/proc/self/environ").toList

def faultOf (e : IO.Error) : FileFault :=
  match e with
  | .noFileOrDirectory _ _ _ => .missing
  | .inappropriateType _ code _ => if code = 21 then .isDirectory else .notDirectory
  | e => .other e.toString

def readFile (path : String) : IO (Except FileFault ByteArray) := do
  if path.toList.contains '\x00' then return .error .zeroInName
  try
    return .ok (← IO.FS.readBinFile path)
  catch e => return .error (faultOf e)

/-- Runs the sources over the files read so far, and again whenever one more has been read. -/
partial def run (arguments : List String) (process : ProcessVariables)
    (files : List (String × Except FileFault ByteArray)) : IO Ending := do
  let ending := CommandLine.run arguments process (Files.ofRead files)
  match ending.awaitedFile? with
  | some path => run arguments process ((path, ← readFile path) :: files)
  | none => return ending

def now : IO Int := do
  return (← Std.Time.Timestamp.now).toNanosecondsSinceUnixEpoch.val

def save (directory : String) (format : ReportFormat) (report : Report) (second : Int) :
    IO Unit := do
  let directory := if directory.isEmpty then "." else directory
  try
    IO.FS.createDirAll directory
    let path := directory ++ "/" ++ Report.fileName format second
    IO.FS.writeFile path (report.render format)
    IO.println s!"Report saved: {path}"
  catch e => IO.println s!"Failed to save report: {e}"

def display (ending : Ending) (milliseconds : Nat) (nanoseconds : Int) : IO Unit := do
  let timestamp := (Timestamp.mk nanoseconds 0).render
  match ending, ending.report? milliseconds timestamp with
  | .halted .help, _ => IO.println CommandLine.help
  | .halted .version, _ => IO.println CommandLine.version
  | .halted (.misuse m), _ => IO.eprintln (CommandLine.misuseText m)
  | .refused message, _ => IO.eprintln s!"Error: {message}"
  | .unending, _ => IO.eprintln "Error: the sources redirect for ever"
  | .ran _ fault _, some report => do
    (CommandLine.runLines fault report).forM fun line => IO.println line
    match ending.destination? with
    | some (directory, format) =>
      save directory format report (Int.fdiv nanoseconds Timestamp.nanosPerSecond)
    | none => pure ()
  | .ran _ _ _, none => pure ()

end ApiScript.Program

def main (arguments : List String) : IO UInt32 := do
  let start ← IO.monoMsNow
  let ending ← ApiScript.Program.run arguments (← ApiScript.Program.readVariables) []
  let milliseconds := (← IO.monoMsNow) - start
  ApiScript.Program.display ending milliseconds (← ApiScript.Program.now)
  return ending.status.toUInt32
