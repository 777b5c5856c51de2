import ApiScript.Json.Basic

/-! # Telling listeners of changes

Each event is delivered once to every listener that is subscribed, in the order of subscription. The
notifier keeps what it has delivered.
-/

namespace ApiScript

structure Event where
  name : String
  old : Option Json
  new : Option Json

namespace Event

def ofVariable (name : String) (old new : Option Json) : Event := ⟨"env." ++ name, old, new⟩

def ofCalls (old new : Nat) : Event := ⟨"calls", some (Json.ofNat old), some (Json.ofNat new)⟩

def ofCancelled (now : Bool) : Event := ⟨"cancelled", some (.bool !now), some (.bool now)⟩

end Event

structure Notifier where
  listeners : List Nat
  nextId : Nat
  /-- What has been delivered, to whom, in order. -/
  delivered : List (Nat × Event)

namespace Notifier

def empty : Notifier := ⟨[], 0, []⟩

instance : Inhabited Notifier := ⟨empty⟩

/-- Adds a listener under an identifier that has never been given. -/
def subscribe (n : Notifier) : Nat × Notifier :=
  (n.nextId, { n with listeners := n.listeners ++ [n.nextId], nextId := n.nextId + 1 })

def unsubscribe (n : Notifier) (id : Nat) : Bool × Notifier :=
  (n.listeners.contains id, { n with listeners := n.listeners.filter (· ≠ id) })

def fire (n : Notifier) (e : Event) : Notifier :=
  { n with delivered := n.delivered ++ n.listeners.map fun id => (id, e) }

def describe (n : Notifier) : String :=
  "ChangeNotifier \x7b listeners: " ++ toString n.listeners.length ++ " \x7d"

end Notifier

end ApiScript
