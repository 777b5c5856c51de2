import ApiScript.Proofs.Session.Depth

/-! # What can be done to a session

Besides running tasks, one can bind variables, keep scripts, ask a session to stop, and more. Any
number of such operations leads from a new session to those that are ever reached.
-/

namespace ApiScript

inductive Operation where
  | task (task : Task)
  | bind (name : String) (value : Json)
  | unbind (name : String)
  | setScript (name : String) (script : Script)
  | setTemplate (name : String) (template : Script)
  | setLanguage (language : String)
  | addCall (call : Call)
  | increment
  | resetCount
  | cancel
  | raise
  | reset
  | listen
  | unlisten (id : Nat)

namespace Operation

/-- How an operation ends. One that fails may have changed the session before. -/
inductive Ends (host : Host) (s : Session) : Operation → Except Fault Unit → Session → Prop where
  | task {task : Task} {result : Except Fault Unit} {t : Session} : task.Ends host s result t →
      Ends host s (.task task) result t
  | bind {name : String} {value : Json} {t : Session} : s.bind name value = .ok t →
      Ends host s (.bind name value) (.ok ()) t
  | reserved {name : String} {value : Json} {f : Fault} : s.bind name value = .error f →
      Ends host s (.bind name value) (.error f) s
  | unbind {name : String} : Ends host s (.unbind name) (.ok ()) (s.unbind name)
  | setScript {name : String} {script : Script} :
      Ends host s (.setScript name script) (.ok ()) (s.setScript name script)
  | setTemplate {name : String} {template : Script} :
      Ends host s (.setTemplate name template) (.ok ()) (s.setTemplate name template)
  | setLanguage {language : String} :
      Ends host s (.setLanguage language) (.ok ()) { s with language }
  | addCall {call : Call} : Ends host s (.addCall call) (.ok ()) (s.addCall call)
  | increment : Ends host s .increment (.ok ()) s.increment
  | resetCount : Ends host s .resetCount (.ok ()) s.resetCount
  | cancel : Ends host s .cancel (.ok ()) s.cancel
  | raise : Ends host s .raise (.ok ()) s.raise
  | reset : Ends host s .reset (.ok ()) s.reset
  | listen : Ends host s .listen (.ok ())
      { s with vars := { s.vars with notifier := s.vars.notifier.subscribe.2 } }
  | unlisten {id : Nat} : Ends host s (.unlisten id) (.ok ())
      { s with vars := { s.vars with notifier := (s.vars.notifier.unsubscribe id).2 } }

end Operation

namespace Session

/-- A session in which nothing has happened yet: a first one, or a branch of another. -/
def IsNew (s : Session) : Prop :=
  (∃ env settings plugins, start env settings plugins = .ok s) ∨ ∃ other : Session, s = other.branch

theorem IsNew.rebinds {s : Session} (h : s.IsNew) : ∃ u : Session, u.Rebinds s ∧
    u.vars.notifier = Notifier.empty ∧ u.ledger = Ledger.empty ∧ u.cancelled = false := by
  rcases h with ⟨env, settings, plugins, h⟩ | ⟨other, rfl⟩
  · unfold start at h
    dsimp only at h
    split at h
    · cases h
    · rename_i t ht
      cases h
      exact ⟨_, (rebinds_of_bindAll ht).trans (rebinds_publishCount t), rfl, rfl, rfl⟩
  · exact ⟨_, rebinds_publishCount _, rfl, rfl, rfl⟩

/-- An operation of some kind leads from one session to another. The transport carries as its
faults no failed assertions but some. -/
def Step (P : Call → Prop) (allowed : Operation → Prop) (s t : Session) : Prop :=
  ∃ host op result, Host.Confined P host ∧ allowed op ∧ Operation.Ends host s op result t

end Session

end ApiScript
