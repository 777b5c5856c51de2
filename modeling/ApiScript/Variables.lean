import ApiScript.Environment
import ApiScript.Notifier

/-! # Variables with listeners

Each change of a variable is told to the listeners.
-/

namespace ApiScript

structure Variables where
  env : Environment
  notifier : Notifier

namespace Variables

instance : Inhabited Variables := ⟨⟨Environment.empty, Notifier.empty⟩⟩

def bind (v : Variables) (name : String) (value : Json) : Except Fault Variables :=
  match v.env.bind name value with
  | .error f => .error f
  | .ok env => .ok ⟨env, v.notifier.fire (.ofVariable name (v.env.get? name) (some value))⟩

/-- Unbinds a variable, which is told if it was bound. -/
def unbind (v : Variables) (name : String) : Variables :=
  match v.env.get? name with
  | none => v
  | some old => ⟨v.env.unbind name, v.notifier.fire (.ofVariable name (some old) none)⟩

end Variables

/-- What looks at variables and binds some, and may end in trouble; what was bound before the
trouble stays. -/
inductive Binding (α : Type) where
  | done (result : Except Trouble α)
  | look (next : Environment → Binding α)
  /-- Binds a variable, and goes on with whether that could be done. -/
  | bindThen (name : String) (value : Json) (next : Except Fault Unit → Binding α)

namespace Binding

variable {α β : Type}

def run : Binding α → StateM Variables (Except Trouble α)
  | .done result, v => (result, v)
  | .look next, v => run (next v.env) v
  | .bindThen name value next, v =>
    match v.bind name value with
    | .error f => run (next (.error f)) v
    | .ok v => run (next (.ok ())) v

def andThen : Binding α → (Except Trouble α → Binding β) → Binding β
  | .done result, next => next result
  | .look seen, next => .look fun env => andThen (seen env) next
  | .bindThen name value bound, next => .bindThen name value fun r => andThen (bound r) next

def lift (result : Except Trouble α) : Binding α := .done result

instance : Monad Binding where
  pure a := .done (.ok a)
  bind b next := b.andThen fun
    | .ok a => next a
    | .error t => .done (.error t)

instance : MonadExceptOf Trouble Binding where
  throw t := .done (.error t)
  tryCatch b handle := b.andThen fun
    | .ok a => .done (.ok a)
    | .error t => handle t

def bind (name : String) (value : Json) : Binding Unit :=
  .bindThen name value fun
    | .ok () => .done (.ok ())
    | .error f => .done (.error (Trouble.ofFault f))

def env : Binding Environment := .look fun env => .done (.ok env)

/-- Binds the variable of each entry to the value found for it, entry by entry; each value is found
among the variables that the entries before it have bound. -/
def bindEach (find : String → Json → Environment → Except Trouble Json) :
    Fields Json → Binding Unit
  | [] => pure ()
  | (name, spec) :: rest => do
    let value ← lift (find name spec (← env))
    bind name value
    bindEach find rest

end Binding

end ApiScript
