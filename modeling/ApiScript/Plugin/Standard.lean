import ApiScript.Cel.Engine
import ApiScript.Expansion
import ApiScript.Json.Difference
import ApiScript.Json.Path
import ApiScript.Pattern.Parser
import ApiScript.Plugin.Basic
import ApiScript.Text.Basic
import ApiScript.Text.Encoding

/-! # The plug-ins that are always there

An extractor binds variables one after the other; one that fails leaves those before it bound.
-/

namespace ApiScript

/-! ## Assertions on responses and variables -/

namespace Assertion

/-- Whether a status is the number, or matches as a whole the pattern, that is expected. -/
def statusMatches (status : Nat) : Json → Except Trouble Bool
  | .number (.int n) => .ok (n == status)
  | .number (.float _) => .ok false
  | .string pattern =>
    match Pattern.ofText? ("^(?:" ++ pattern ++ ")$") with
    | none => .error (Trouble.ofText s!"Invalid status pattern '{pattern}'")
    | some p => .ok (p.matchesIn (toString status))
  | other =>
    .error (Trouble.ofText s!"status must be a number, pattern or list, got {other.render}")

def anyMatches (status : Nat) : List Json → Except Trouble Bool
  | [] => .ok false
  | expected :: rest =>
    match statusMatches status expected with
    | .error t => .error t
    | .ok true => .ok true
    | .ok false => anyMatches status rest

def status : Assertion := fun spec call env => do
  let response ← call.requireResponse "status assertion"
  let expected := env.expandValue spec
  let candidates := match expected with
    | .array items => items
    | single => [single]
  if ← anyMatches response.status candidates then return .pass
  else return .fail s!"status {response.status} does not match {expected.render}"

def headerFinding (actual : Fields String) (name want : String) : Option String :=
  match Fields.get? (asciiLower name) actual with
  | none => some s!"header '{name}' missing from response"
  | some got =>
    if got = want then none
    else some s!"header '{name}' mismatch: expected '{want}', got '{got}'"

def headerFindings (actual : Fields String) (expected : List (String × String)) : List String :=
  expected.filterMap fun e => headerFinding actual e.1 e.2

def headers : Assertion := fun spec call env => do
  let response ← call.requireResponse "headers assertion"
  let expected ← fieldsOf "headers assertion" spec
  return .ofFindings (headerFindings response.headers
    (expected.map fun e => (e.1, (env.expandValue e.2).asText)))

def json : Assertion := fun spec call env => do
  let response ← call.requireResponse "json assertion"
  match response.json? with
  | none => return .fail "response body is not valid JSON"
  | some actual =>
    match Json.difference (env.expandValue spec) actual with
    | none => return .pass
    | some difference => return .fail difference

def missingFindings (body : String) (texts : List String) : List String :=
  texts.filterMap fun text =>
    if isPart text.toList body.toList then none
    else some s!"response body does not contain '{text}'"

def contains : Assertion := fun spec call env => do
  let response ← call.requireResponse "contains assertion"
  let texts ← textsOf "contains" spec
  return .ofFindings (missingFindings response.body (texts.map env.expand))

def bound : Assertion := fun spec _ env => do
  let unbound := (← textsOf "bound" spec).filter fun name => !env.isBound name
  if unbound.isEmpty then return .pass
  else return .fail ("unbound variable(s): " ++ ", ".intercalate unbound)

/-- Evaluates expressions up to the first one whose value does not count as true. -/
def expressions (engine : Engine) (env : Environment) : List String → Except Trouble Verdict
  | [] => .ok .pass
  | text :: rest =>
    let expanded := env.expand text
    match engine expanded env with
    | .error t => .error (t.explain s!"Failed to evaluate assertion '{expanded}'")
    | .ok value =>
      if value.isTruthy then expressions engine env rest
      else .ok (.fail s!"'{expanded}' evaluated to {value.render}")

def ofEngine (engine : Engine) : Assertion := fun spec _ env => do
  expressions engine env (← textsOf "expression" spec)

end Assertion

/-! ## Extractors -/

namespace Extractor

def valueAt (body : Json) (name : String) (spec : Json) (env : Environment) : Except Trouble Json :=
  match spec with
  | .string path =>
    let path := env.expand path
    match body.at? path with
    | some value => .ok value
    | none => .error (Trouble.ofText s!"JSON path '{path}' not found in response")
  | other =>
    .error
      (Trouble.ofText s!"json extractor path for '{name}' must be a string, got {other.render}")

/-- Binds the whole body as JSON, or the values at paths in it. -/
def json : Extractor := fun spec call => do
  let response ← Binding.lift (call.requireResponse "json extractor")
  match response.json? with
  | none => throw (Trouble.ofText s!"Failed to parse response of {call.script.label} as JSON")
  | some body =>
    match spec with
    | .string name => Binding.bind ((← Binding.env).expand name) body
    | .object paths => Binding.bindEach (valueAt body) paths
    | other =>
      throw (Trouble.ofText
        s!"json extractor expects a name or an object of paths, got {other.render}")

def headerValue (response : Response) (name : String) (spec : Json) (_ : Environment) :
    Except Trouble Json :=
  match spec with
  | .string header =>
    match response.header? header with
    | some value => .ok (.string value)
    | none => .error (Trouble.ofText s!"Header '{header}' not found in response")
  | other =>
    .error (Trouble.ofText s!"header name for '{name}' must be a string, got {other.render}")

def headers : Extractor := fun spec call => do
  let response ← Binding.lift (call.requireResponse "headers extractor")
  let names ← Binding.lift (fieldsOf "headers extractor" spec)
  Binding.bindEach (headerValue response) names

def text : Extractor := fun spec call => do
  let response ← Binding.lift (call.requireResponse "text extractor")
  match spec with
  | .string name => Binding.bind name (.string response.body)
  | other =>
    throw (Trouble.ofText s!"text extractor expects a variable name, got {other.render}")

def expressionValue (engine : Engine) (name : String) (spec : Json) (env : Environment) :
    Except Trouble Json :=
  match spec with
  | .string text =>
    let expanded := env.expand text
    explained s!"Failed to evaluate '{expanded}' for '{name}'" (engine expanded env)
  | other =>
    .error (Trouble.ofText s!"expression for '{name}' must be a string, got {other.render}")

def ofEngine (engine : Engine) : Extractor := fun spec _ => do
  let entries ← Binding.lift (fieldsOf "script extractor" spec)
  Binding.bindEach (expressionValue engine) entries

end Extractor

/-! ## Bodies of requests -/

namespace Generator

def json : Generator := fun spec env =>
  .ok ⟨(env.expandValue spec).render, some "application/json"⟩

def text : Generator := fun spec env =>
  match spec with
  | .string s => .ok ⟨env.expand s, some "text/plain"⟩
  | .array items =>
    match textItems items with
    | .ok lines => .ok ⟨"\n".intercalate (lines.map env.expand), some "text/plain"⟩
    | .error v => .error (Trouble.ofText s!"text body lines must be strings, got {v.render}")
  | other =>
    .error (Trouble.ofText s!"text body expects a string or list of strings, got {other.render}")

end Generator

/-! ## Plug-ins by name -/

structure Plugins where
  assertions : Table Assertion
  extractors : Table Extractor
  generators : Table Generator
  engines : Table Engine

namespace Plugins

def empty : Plugins := ⟨Table.empty, Table.empty, Table.empty, Table.empty⟩

instance : Inhabited Plugins := ⟨empty⟩

def standard : Plugins where
  assertions := ⟨[("status", Assertion.status), ("headers", Assertion.headers),
    ("json", Assertion.json), ("contains", Assertion.contains), ("bound", Assertion.bound)]⟩
  extractors := ⟨[("json", Extractor.json), ("headers", Extractor.headers),
    ("text", Extractor.text)]⟩
  generators := ⟨[("json", Generator.json), ("text", Generator.text)]⟩
  engines := ⟨[("cel", Cel.evaluate)]⟩

def engine (p : Plugins) (language : String) : Except Fault Engine :=
  match p.engines.get? language with
  | some engine => .ok engine
  | none => .error (.unknownPlugin .engine language)

def describeNames (names : List String) : String :=
  "[" ++ ", ".intercalate ((Fields.ofList (names.map fun n => (n, ()))).names.map QuotedText.text)
    ++ "]"

def describe (p : Plugins) : String :=
  "PluginRegistry \x7b assertions: " ++ describeNames p.assertions.names ++
    ", extractors: " ++ describeNames p.extractors.names ++
    ", generators: " ++ describeNames p.generators.names ++
    ", engines: " ++ describeNames p.engines.names ++ " \x7d"

end Plugins

end ApiScript
