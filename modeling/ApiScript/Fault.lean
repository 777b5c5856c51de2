import ApiScript.Ledger

/-! # What can go wrong

A fault ends the resolution of documents, except for a failed assertion, which is counted. Plug-ins,
transports and script engines report trouble: a cause under the explanations added on its way. A
fault that is the cause of trouble comes out again as it was.
-/

namespace ApiScript

inductive PluginKind where
  | assertion
  | extractor
  | engine
  deriving DecidableEq

def PluginKind.text : PluginKind → String
  | .assertion => "assertion"
  | .extractor => "extractor"
  | .engine => "script engine"

inductive Fault where
  | noSuchScript (name : String)
  | noSuchTemplate (name : String)
  /-- The way round: the last name is one of those before it. -/
  | templateCycle (names : List String)
  | reservedName (name : String)
  /-- A source that cannot be read; the causes stand with the outermost first. -/
  | load (locator : String) (causes : List String)
  | invalidScript (script message : String)
  | unknownPlugin (kind : PluginKind) (name : String)
  | assertionFailed (call : Call)
  | plugin (message : String)

namespace Fault

def message : Fault → String
  | .noSuchScript name => s!"no such script named '{name}'"
  | .noSuchTemplate name => s!"no such template named '{name}'"
  | .templateCycle names => "template cycle detected: " ++ " -> ".intercalate names
  | .reservedName name => s!"cannot rebind special Unicode variable {name}"
  | .load locator causes => s!"failed to load '{locator}': " ++ ": ".intercalate causes
  | .invalidScript script message => s!"invalid script {script}: {message}"
  | .unknownPlugin kind name => s!"no {kind.text} plugin named '{name}'"
  | .assertionFailed call =>
    s!"{call.failures.length} assertion(s) failed in script {call.script.label}"
  | .plugin message => message

/-- Whether a run goes on after the fault. -/
def isAssertionFailure : Fault → Bool
  | .assertionFailed _ => true
  | _ => false

end Fault

inductive Cause where
  | fault (f : Fault)
  | other (message : String)

def Cause.message : Cause → String
  | .fault f => f.message
  | .other message => message

/-- A cause and the explanations added to it, the last one first. -/
structure Trouble where
  explanations : List String
  cause : Cause

namespace Trouble

def ofFault (f : Fault) : Trouble := ⟨[], .fault f⟩

def ofText (message : String) : Trouble := ⟨[], .other message⟩

def explain (t : Trouble) (explanation : String) : Trouble :=
  { t with explanations := explanation :: t.explanations }

def chain (t : Trouble) : List String := t.explanations ++ [t.cause.message]

/-- The last explanation, or the cause when there is none. -/
def message (t : Trouble) : String := t.explanations.headD t.cause.message

end Trouble

/-- The fault that trouble amounts to: the fault that caused it, whatever explanations lie over
it, or else a plug-in's failure with the last explanation. -/
def Fault.ofTrouble (t : Trouble) : Fault :=
  match t.cause with
  | .fault f => f
  | .other _ => .plugin t.message

def settle {α : Type} : Except Trouble α → Except Fault α
  | .ok a => .ok a
  | .error t => .error (Fault.ofTrouble t)

def explained {α : Type} (explanation : String) : Except Trouble α → Except Trouble α
  | .ok a => .ok a
  | .error t => .error (t.explain explanation)

end ApiScript
