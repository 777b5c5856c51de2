import ApiScript.Session.Execution

/-! # Resolving documents

A document is a script, which is run; the name of a script, which is run again; a list of documents;
or a redirect to the documents of a source. A script whose name ends in `.template` is kept as a
template and not run.

Redirects may go round for ever. They are followed to a given depth; without a result at that depth
there is none at all, which is told apart from a fault.
-/

namespace ApiScript

/-- What changes a session and may end with a fault, or not at all. -/
abbrev Resolution := ExceptT Fault (StateT Session Option) Unit

namespace Resolution

def ofRun (r : Run Unit) : Resolution := fun s => some (r.run.run s)

def unending : Resolution := fun _ => none

/-- What a text after an at sign leads to. -/
abbrev Redirect := String → Resolution

def resolveText (host : Host) (redirect : Redirect) (text : String) : Resolution :=
  match text.toList with
  | '@' :: rest => redirect (String.ofList rest)
  | _ => do
    match (← get).registry.script? text with
    | some script => ofRun (runScript host script)
    | none => throw (.noSuchScript text)

/-- Keeps a script under its name, and runs it unless it is a template. -/
def resolveScript (host : Host) (fields : Fields Json) : Resolution := do
  match Script.ofFields fields with
  | .error f => throw f
  | .ok script =>
    match script.name with
    | none => ofRun (runScript host script)
    | some name =>
      if script.isTemplate then
        modify fun s => s.setTemplate name script
      else
        modify fun s => s.setScript name script
        ofRun (runScript host script)

mutual

def resolve (host : Host) (redirect : Redirect) : Json → Resolution
  | .string text => resolveText host redirect text
  | .array items => resolveAll host redirect items
  | .object fields => resolveScript host fields
  | other =>
    throw
      (.invalidScript other.render "a document must be a script object, a script name or a list")

/-- Resolves documents in turn, until one ends with a fault or the session is to stop. -/
def resolveAll (host : Host) (redirect : Redirect) : List Json → Resolution
  | [] => pure ()
  | document :: rest => do
    modify Session.observe
    if (← get).cancelled then pure ()
    else
      resolve host redirect document
      resolveAll host redirect rest

end

def read (host : Host) (locator : String) : Except Fault (List Json) :=
  match host.read locator with
  | .ok documents => .ok documents
  | .error causes => .error (.load locator causes)

def resolveSource (host : Host) (redirect : Redirect) (locator : String) : Resolution :=
  match read host locator with
  | .ok documents => resolveAll host redirect documents
  | .error f => throw f

/-- Follows redirects to a depth. -/
def follow (host : Host) : Nat → Redirect
  | 0, _ => unending
  | depth + 1, text => do
    resolveSource host (follow host depth) ((← get).env.expand text)

def resolveSources (host : Host) (redirect : Redirect) : List String → Resolution
  | [] => pure ()
  | source :: rest => do
    modify Session.observe
    if (← get).cancelled then pure ()
    else
      resolveSource host redirect source
      resolveSources host redirect rest

end Resolution

namespace Session

/-- How deep redirects are followed when nothing else is said. -/
def redirectDepth : Nat := 100000

def resolve (host : Host) (document : Json) (depth : Nat := redirectDepth) : Resolution :=
  Resolution.resolve host (Resolution.follow host depth) document

def resolveAll (host : Host) (documents : List Json) (depth : Nat := redirectDepth) : Resolution :=
  Resolution.resolveAll host (Resolution.follow host depth) documents

/-- Resolves documents, even if the session had been asked to stop before. -/
def execute (host : Host) (documents : List Json) (depth : Nat := redirectDepth) : Resolution := do
  modify clearCancelled
  resolveAll host documents depth

def executeSource (host : Host) (source : String) (depth : Nat := redirectDepth) : Resolution := do
  modify clearCancelled
  Resolution.resolveSource host (Resolution.follow host depth) source

def executeSources (host : Host) (sources : List String) (depth : Nat := redirectDepth) :
    Resolution := do
  modify clearCancelled
  Resolution.resolveSources host (Resolution.follow host depth) sources

end Session

end ApiScript
