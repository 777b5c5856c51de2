import ApiScript.Script.Reading
import ApiScript.Session.Basic

/-! # Running one script

A script takes in its templates and binds its variables. Unless its condition says otherwise, its
preconditions are judged; if all hold, it sends its request, if it has one, takes values from the
response, and judges its assertions.
-/

namespace ApiScript

namespace Execution

def complete (script : Script) : Run Script := do
  if script.templates.isEmpty then return script
  else Run.lift ((← get).registry.applyTemplates script)

/-- Binds the variables of a script in the order of their names, each of which the later ones
see. -/
def bindVariables (fields : Fields Json) : Binding Unit :=
  Binding.bindEach (fun _ value env => .ok (env.expandValue value)) fields

def bindEnv (script : Script) : Run Unit :=
  match script.directive? "env" with
  | none => pure ()
  | some (.object fields) => Run.ofBinding (bindVariables fields)
  | some _ => throw (.invalidScript script.label "\"env\" must be an object")

def conditionHolds (script : Script) (s : Session) : Except Fault Bool :=
  match script.directive? "if" with
  | none => .ok true
  | some (.bool b) => .ok b
  | some (.string text) => do
    let engine ← s.engine none
    let value ← settle (engine (s.env.expand text) s.env)
    return value.isTruthy
  | some other =>
    .error (.invalidScript script.label
      s!"\"if\" must be a boolean or expression, got {other.render}")

/-- The assertion with a name: a plug-in, or the expressions of a language. -/
def assertion (s : Session) (name : String) : Except Fault Assertion :=
  match s.plugins.assertions.get? name, s.plugins.engines.get? name with
  | some plugin, _ => .ok plugin
  | none, some engine => .ok (Assertion.ofEngine engine)
  | none, none => .error (.unknownPlugin .assertion name)

def judge (s : Session) (call : CallContext) (label : String) (assertion : Assertion)
    (spec : Json) : Except Fault (List AssertionFailure) :=
  match settle (assertion spec call s.env) with
  | .error f => .error f
  | .ok .pass => .ok []
  | .ok (.fail message) => .ok [⟨label, message⟩]

def judgeFields (s : Session) (call : CallContext) :
    Fields Json → Except Fault (List AssertionFailure)
  | [] => .ok []
  | (name, spec) :: rest => do
    let found ← judge s call name (← assertion s name) spec
    return found ++ (← judgeFields s call rest)

/-- Judges a call by the items of a list: expressions of the default language, and objects that
name assertions. -/
def judgeItems (s : Session) (call : CallContext) (directive : String) :
    List Json → Except Fault (List AssertionFailure)
  | [] => .ok []
  | .string text :: rest => do
    let found ← judge s call text (Assertion.ofEngine (← s.engine none)) (.string text)
    return found ++ (← judgeItems s call directive rest)
  | .object fields :: rest => do
    let found ← judgeFields s call fields
    return found ++ (← judgeItems s call directive rest)
  | other :: _ =>
    .error (.invalidScript call.script.label
      s!"{directive} entries must be strings or objects, got {other.render}")

def failures (s : Session) (call : CallContext) (directive : String) :
    Except Fault (List AssertionFailure) :=
  judgeItems s call directive (call.script.list directive)

def extractor (s : Session) (name : String) : Except Fault Extractor :=
  match s.plugins.extractors.get? name, s.plugins.engines.get? name with
  | some plugin, _ => .ok plugin
  | none, some engine => .ok (Extractor.ofEngine engine)
  | none, none => .error (.unknownPlugin .extractor name)

def extractFields (call : CallContext) : Fields Json → Run Unit
  | [] => pure ()
  | (name, spec) :: rest => do
    let plugin ← Run.lift (extractor (← get) name)
    Run.ofBinding (plugin spec call)
    extractFields call rest

def extractItems (call : CallContext) : List Json → Run Unit
  | [] => pure ()
  | .object fields :: rest => do
    extractFields call fields
    extractItems call rest
  | other :: _ =>
    throw (.invalidScript call.script.label s!"bind entries must be objects, got {other.render}")

def extract (call : CallContext) : Run Unit := extractItems call (call.script.list "bind")

def headers (s : Session) (script : Script) : Except Fault (Table String) :=
  match script.directive? "headers" with
  | none => .ok Table.empty
  | some (.object fields) => .ok ⟨fields.map fun e => (e.1, (s.env.expandValue e.2).asText)⟩
  | some other =>
    .error (.invalidScript script.label s!"\"headers\" must be an object, got {other.render}")

/-- The generator that the only field of an object names, with its value, or else the one for
JSON, with the object. -/
def generatorFor (plugins : Plugins) (spec : Json) : Generator × Json :=
  match spec with
  | .object [(name, inner)] =>
    match plugins.generators.get? name with
    | some generator => (generator, inner)
    | none => (Generator.json, spec)
  | _ => (Generator.json, spec)

def body (s : Session) (script : Script) : Except Fault (Option RequestBody) :=
  match script.directive? "body" with
  | none => .ok none
  | some .null => .ok none
  | some (.string text) => .ok (some ⟨s.env.expand text, none⟩)
  | some spec =>
    let (generator, inner) := generatorFor s.plugins spec
    (settle (generator inner s.env)).map some

/-- A request with a body; the type of the body becomes a header unless there is one already. -/
def withBody (request : Request) : Option RequestBody → Request
  | none => request
  | some ⟨content, none⟩ => { request with body := some content }
  | some ⟨content, some contentType⟩ =>
    if request.hasHeader "Content-Type" then { request with body := some content }
    else
      { request with
        headers := request.headers.insert "Content-Type" contentType, body := some content }

def request (s : Session) (script : Script) (method : Method) (url : String) :
    Except Fault Request := do
  let headers ← headers s script
  let body ← body s script
  return withBody ⟨method, s.env.expand url, headers, none⟩ body

def send (host : Host) (request : Request) : Run Response := do
  let s ← get
  set (s.sending host request)
  Run.lift (settle (host.transport s.sent request).1)

def exchange (host : Host) (script : Script) : Run CallContext := do
  match ← Run.lift script.request with
  | none => return ⟨script, none, none⟩
  | some (method, url) =>
    let built ← Run.lift (request (← get) script method url)
    let received ← send host built
    return ⟨script, some built, some received⟩

def conclude (call : CallContext) : Run Call := do
  extract call
  let unmet ← Run.lift (failures (← get) call "assert")
  return ⟨call.script, call.request, call.response, unmet, 0⟩

/-- Runs a script and gives the record of its call; none if its condition does not hold. -/
def run (host : Host) (script : Script) : Run (Option Call) := do
  let script ← complete script
  bindEnv script
  if ← Run.lift (conditionHolds script (← get)) then
    let unmet ← Run.lift (failures (← get) ⟨script, none, none⟩ "preconditions")
    if unmet.isEmpty then
      return some (← conclude (← exchange host script))
    else return some ⟨script, none, none, unmet, 0⟩
  else return none

/-- As `run`; a call with failed assertions is a fault. -/
def runStrictly (host : Host) (script : Script) : Run (Option Call) := do
  match ← run host script with
  | none => return none
  | some call => if call.passed then return some call else throw (.assertionFailed call)

end Execution

namespace Session

/-- Counts the failed assertions of a call, one at least, and records the call. -/
def absorb (s : Session) (call : Call) : Session :=
  (Nat.repeat increment (max 1 call.failures.length) s).addCall call

end Session

/-- Runs a script and records its call. Failed assertions are counted and recorded; every other
fault ends the run. -/
def runScript (host : Host) (script : Script) : Run Unit := fun s =>
  match (Execution.runStrictly host script).run.run s with
  | (.ok none, s) => (.ok (), s)
  | (.ok (some call), s) => (.ok (), s.addCall call)
  | (.error (.assertionFailed call), s) => (.ok (), s.absorb call)
  | (.error f, s) => (.error f, s)

end ApiScript
