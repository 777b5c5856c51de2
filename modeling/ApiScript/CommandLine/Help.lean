import ApiScript.CommandLine.Run

/-! # What the command line shows

The help, and lines on a run for people who watch it.
-/

namespace ApiScript

def Switch.purpose : Switch → String
  | .verbose => "Enable verbose logging"
  | .language =>
    "Default language for `if` conditions and expression assertions [env: RAVEL_SCRIPT_LANGUAGE=]"
  | .timeout => "Timeout in seconds per request [env: RAVEL_TIMEOUT=]"
  | .define =>
    "Bind a variable before running (NAME=VALUE, VALUE parsed as JSON when possible). " ++
      "May be repeated"
  | .reportDirectory => "Directory to save the run report to"
  | .reportFormat => "Report output format [default: json] [possible values: json, yaml, text]"
  | .help => "Print help"
  | .version => "Print version"

namespace CommandLine

def shownSwitches : List Switch :=
  [.verbose, .language, .timeout, .define, .reportDirectory, .reportFormat, .help, .version]

/-- A switch and what it is for, which begins in the same column for all. -/
def switchLine (s : Switch) : String :=
  let letter := match s.short? with
    | some c => String.ofList ['-', c, ',', ' ']
    | none => "    "
  let left := letter ++ s.text
  "  " ++ left ++ String.ofList (List.replicate (41 - left.length) ' ') ++ s.purpose

def usage : String := s!"Usage: {programName} [OPTIONS] <SOURCES>..."

def help : String :=
  "\n".intercalate (["Ravel - declarative API test script runner", "", usage, "", "Arguments:",
    "  <SOURCES>...  Script sources: file paths or http(s) URLs, run in order", "", "Options:"] ++
    shownSwitches.map switchLine)

/-- What is shown of arguments that do not lead to a run. -/
def misuseText (m : Misuse) : String :=
  s!"error: {m.message}\n\n{usage}\n\nFor more information, try '--help'."

def callLines (c : Call) : List String :=
  let target := match c.request with
    | some r => s!"{r.method.text} {r.url}"
    | none => "(no request)"
  let verdict := Report.verdict c.passed
  s!"{verdict} {c.script.label} {target} ({c.milliseconds} ms)" ::
    c.failures.map fun f => s!"     {f.assertion}: {f.message}"

def runLines (fault : Option Fault) (r : Report) : List String :=
  (match fault with
    | some f => [s!"Run aborted: {f.message}"]
    | none => []) ++
    r.calls.flatMap callLines ++
    ["Summary:", s!"  Calls: {r.calls.length}", s!"  Failures: {r.failures}",
      s!"  Duration: {r.milliseconds} ms"]

end CommandLine

end ApiScript
