import ApiScript.Ledger
import ApiScript.Plugin.Standard
import ApiScript.Registry
import ApiScript.Settings.Basic

/-! # Sessions

A session is what runs of scripts share: variables, scripts and templates, the history, and whether
to stop. Every change that a listener can see is told to the listeners.

A session is asked to stop by raising a flag; it observes this before the next document, and tells
it once.
-/

namespace ApiScript

structure Session where
  vars : Variables
  registry : Registry
  ledger : Ledger
  /-- The session has observed that it is to stop. -/
  cancelled : Bool
  /-- The session has been asked to stop. -/
  raised : Bool
  plugins : Plugins
  language : String
  sent : List Request

namespace Session

instance : Inhabited Session :=
  ⟨⟨default, default, default, false, false, default, "cel", []⟩⟩

def env (s : Session) : Environment := s.vars.env

def fire (s : Session) (e : Event) : Session :=
  { s with vars := { s.vars with notifier := s.vars.notifier.fire e } }

def bind (s : Session) (name : String) (value : Json) : Except Fault Session :=
  match s.vars.bind name value with
  | .error f => .error f
  | .ok v => .ok { s with vars := v }

def unbind (s : Session) (name : String) : Session :=
  { s with vars := s.vars.unbind name }

def bindAll (s : Session) : List (String × Json) → Except Fault Session
  | [] => .ok s
  | (name, value) :: rest =>
    match s.bind name value with
    | .error f => .error f
    | .ok s => bindAll s rest

def countVariable : String := "failedAssertionCount"

def publishCount (s : Session) : Session :=
  match s.bind countVariable (Json.ofNat s.ledger.failedAssertions) with
  | .error _ => s
  | .ok s => s

/-- A session with some variables, those of the settings bound on top. -/
def start (env : Environment) (settings : Settings) (plugins : Plugins) : Except Fault Session :=
  let s : Session :=
    { vars := ⟨env, Notifier.empty⟩, registry := Registry.empty, ledger := Ledger.empty,
      cancelled := false, raised := false, plugins := plugins, language := settings.language,
      sent := [] }
  match s.bindAll settings.bindings with
  | .error f => .error f
  | .ok s => .ok s.publishCount

/-- A new session with the variables, the plug-ins and the language of another. -/
def branch (s : Session) : Session :=
  publishCount
    { vars := ⟨s.env, Notifier.empty⟩, registry := Registry.empty, ledger := Ledger.empty,
      cancelled := false, raised := false, plugins := s.plugins, language := s.language,
      sent := [] }

def setScript (s : Session) (name : String) (script : Script) : Session :=
  { s with registry := s.registry.setScript name script }

def setTemplate (s : Session) (name : String) (template : Script) : Session :=
  { s with registry := s.registry.setTemplate name template }

def size (s : Session) : Nat := s.ledger.size

def addCall (s : Session) (c : Call) : Session :=
  let ledger := s.ledger.push c
  { s with ledger }.fire (.ofCalls s.size ledger.size)

def increment (s : Session) : Session :=
  { s with ledger := s.ledger.increment }.publishCount

def resetCount (s : Session) : Session :=
  { s with ledger := s.ledger.resetCount }.publishCount

def isCancelled (s : Session) : Bool := s.cancelled || s.raised

def raise (s : Session) : Session := { s with raised := true }

/-- Takes note of having been asked to stop. -/
def observe (s : Session) : Session :=
  if !s.cancelled && s.raised then { s with cancelled := true }.fire (.ofCancelled true) else s

def cancel (s : Session) : Session := s.raise.observe

def clearCancelled (s : Session) : Session :=
  let s := { s with raised := false }
  if s.cancelled then { s with cancelled := false }.fire (.ofCancelled false) else s

/-- Forgets the history and that the session was asked to stop; variables and scripts stay. -/
def reset (s : Session) : Session :=
  ({ s with ledger := Ledger.empty }.publishCount.clearCancelled).fire (.ofCalls s.size 0)

/-- The failures in the history; a history without calls counts as one more. -/
def report (s : Session) : Nat :=
  s.ledger.recordedFailures + if s.ledger.calls.isEmpty then 1 else 0

def engine (s : Session) (language : Option String) : Except Fault Engine :=
  s.plugins.engine (language.getD s.language)

end Session

structure Host where
  /-- Answers a request, of which the first argument gives those sent before. The answer may raise
  the flag of the session too. -/
  transport : List Request → Request → Except Trouble Response × Bool
  /-- Reads the documents of a source, or gives the causes why it cannot, the outermost first. -/
  read : String → Except (List String) (List Json)

/-- The transport to nowhere: no request can be sent. -/
def Host.unreachable (_ : List Request) (r : Request) : Except Trouble Response × Bool :=
  (.error ((Trouble.ofText "unreachable").explain s!"Failed to send {r.method.text} {r.url}"),
    false)

/-- The session when a request has been sent, whatever the answer. -/
def Session.sending (s : Session) (host : Host) (r : Request) : Session :=
  let after := { s with sent := s.sent ++ [r] }
  if (host.transport s.sent r).2 then after.raise else after

/-- What changes a session and may end with a fault; changes made before the fault stay. -/
abbrev Run (α : Type) := ExceptT Fault (StateM Session) α

namespace Run

def lift {α : Type} : Except Fault α → Run α
  | .ok a => pure a
  | .error f => throw f

def ofBinding {α : Type} (b : Binding α) : Run α := do
  let s ← get
  let (result, vars) := b.run.run s.vars
  set { s with vars }
  lift (settle result)

end Run

end ApiScript
