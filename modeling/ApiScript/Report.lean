import ApiScript.Session.Basic
import ApiScript.Yaml.Printer

/-! # Reports

What a run of sources came to, as JSON, as YAML or as a text for people.
-/

namespace ApiScript

structure Report where
  sources : List String
  failures : Nat
  failedAssertions : Nat
  cancelled : Bool
  milliseconds : Nat
  /-- When the run had ended. -/
  timestamp : String
  calls : List Call

inductive ReportFormat where
  | json
  | yaml
  | text
  deriving DecidableEq

namespace ReportFormat

def all : List ReportFormat := [.json, .yaml, .text]

def name : ReportFormat → String
  | .json => "json"
  | .yaml => "yaml"
  | .text => "text"

def ofName? (name : String) : Option ReportFormat := all.find? fun f => f.name = name

def fileEnding : ReportFormat → String
  | .json => "json"
  | .yaml => "yaml"
  | .text => "txt"

end ReportFormat

namespace Report

def ofSession (s : Session) (sources : List String) (milliseconds : Nat) (timestamp : String) :
    Report :=
  ⟨sources, s.report, s.ledger.failedAssertions, s.isCancelled, milliseconds, timestamp,
    s.ledger.calls⟩

def textOrNull : Option String → Json
  | none => .null
  | some s => .string s

def headersJson (headers : List (String × String)) : Json :=
  .object (headers.map fun e => (e.1, .string e.2))

def scriptJson (s : Script) : Json :=
  .object [("name", textOrNull s.name), ("templates", .array (s.templates.map .string)),
    ("directives", .object s.directives)]

def requestJson (r : Request) : Json :=
  .object [("method", .string r.method.text), ("url", .string r.url),
    ("headers", headersJson r.headers.entries), ("body", textOrNull r.body)]

def responseJson (r : Response) : Json :=
  .object [("status", Json.ofNat r.status), ("headers", headersJson r.headers),
    ("body", .string r.body)]

def failureJson (f : AssertionFailure) : Json :=
  .object [("assertion", .string f.assertion), ("message", .string f.message)]

def callJson (c : Call) : Json :=
  .object [("script", scriptJson c.script), ("request", (c.request.map requestJson).getD .null),
    ("response", (c.response.map responseJson).getD .null),
    ("failed_assertions", .array (c.failures.map failureJson)),
    ("duration_ms", Json.ofNat c.milliseconds)]

def toJson (r : Report) : Json :=
  .object [("sources", .array (r.sources.map .string)), ("failures", Json.ofNat r.failures),
    ("failed_assertion_count", Json.ofNat r.failedAssertions), ("cancelled", .bool r.cancelled),
    ("duration_ms", Json.ofNat r.milliseconds), ("timestamp", .string r.timestamp),
    ("calls", .array (r.calls.map callJson))]

def verdict (passed : Bool) : String := if passed then "PASS" else "FAIL"

def callText (number : Nat) (c : Call) : String :=
  s!"  {number}. {c.script.label} ({verdict c.passed})\n" ++
    String.join (c.failures.map fun f => s!"     {f.assertion}: {f.message}\n")

def text (r : Report) : String :=
  let sources := ", ".intercalate r.sources
  let status := verdict (r.failures == 0)
  s!"Sources: {sources}\nStatus: {status}\n" ++ (if r.cancelled then "Cancelled: yes\n" else "") ++
    s!"Duration: {r.milliseconds} ms\n\nCalls:\n" ++
    String.join (r.calls.mapIdx fun i c => callText (i + 1) c)

def render (format : ReportFormat) (r : Report) : String :=
  match format with
  | .json => r.toJson.renderIndented 0
  | .yaml => Yaml.render r.toJson
  | .text => r.text

def fileName (format : ReportFormat) (second : Int) : String :=
  s!"ravel-{second}.{format.fileEnding}"

end Report

end ApiScript
