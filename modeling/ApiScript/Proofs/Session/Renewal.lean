import ApiScript.Proofs.Session.Flattening
import ApiScript.Proofs.Session.Journal

/-! # A session that is reset

A session that is reset goes on as a new one would that is given its variables, its scripts and its
templates. Nothing of its past shows but to the transport, which may know what it has been sent.
-/

namespace ApiScript

variable {host : Host} {s t : Session} {before : List Request} {name : String}

/-- The host whose transport has been sent some requests before all others. -/
def Host.after (host : Host) (before : List Request) : Host :=
  { host with transport := fun sent request => host.transport (before ++ sent) request }

namespace Session

def following (s : Session) (before : List Request) : Session :=
  { s with sent := before ++ s.sent }

theorem sending_following (s : Session) (before : List Request) (host : Host)
    (request : Request) : (s.following before).sending host request =
      (s.sending (host.after before) request).following before := by
  simp only [sending_eq, following, Host.after, List.append_assoc]

theorem publishCount_following (s : Session) (before : List Request) :
    (s.following before).publishCount = s.publishCount.following before := by
  simp only [publishCount, bind, following]
  cases s.vars.bind countVariable (Json.ofNat s.ledger.failedAssertions) <;> rfl

theorem increment_following (s : Session) (before : List Request) :
    (s.following before).increment = s.increment.following before :=
  publishCount_following { s with ledger := s.ledger.increment } before

theorem observe_following (s : Session) (before : List Request) :
    (s.following before).observe = s.observe.following before := by
  unfold observe following
  dsimp only
  split <;> rfl

theorem clearCancelled_following (s : Session) (before : List Request) :
    (s.following before).clearCancelled = s.clearCancelled.following before := by
  unfold clearCancelled following
  dsimp only
  split <;> rfl

/-- What has been sent before makes no difference if the transport knows of it in both sessions. -/
theorem bisimulation_following (host : Host) (before : List Request) :
    Bisimulation host (host.after before) fun s t => s.Alike (t.following before) where
  read := rfl
  view h := ⟨h.env, h.plugins, h.language⟩
  registry h := h.registry
  answer h request := by
    rw [h.sent]
    rfl
  cancelled h := by
    have hc := (Alike.bisimulation host).cancelled h
    rwa [observe_following] at hc
  bound h _ b := (Alike.bisimulation host).bound h b
  sending h request := by
    rw [← sending_following]
    exact (Alike.bisimulation host).sending h request
  addCall h call := (Alike.bisimulation host).addCall h call
  increment h := by
    rw [← increment_following]
    exact (Alike.bisimulation host).increment h
  setScript h name script := (Alike.bisimulation host).setScript h name script
  setTemplate h name template := (Alike.bisimulation host).setTemplate h name template
  observe h := by
    rw [← observe_following]
    exact (Alike.bisimulation host).observe h
  clearCancelled h := by
    rw [← clearCancelled_following]
    exact (Alike.bisimulation host).clearCancelled h

/-! ## Resetting -/

theorem env_publishCount (s : Session) : s.publishCount.env =
    ⟨s.env.bindings.insert countVariable (Json.ofNat s.ledger.failedAssertions)⟩ := by
  obtain ⟨event, h⟩ := s.publishCount_eq
  rw [h, env]

theorem env_reset (s : Session) :
    s.reset.env = ⟨s.env.bindings.insert countVariable (Json.ofNat 0)⟩ := by
  have hc := keeps_clearCancelled { s with ledger := Ledger.empty }.publishCount
  calc s.reset.env
    _ = { s with ledger := Ledger.empty }.publishCount.clearCancelled.env := rfl
    _ = { s with ledger := Ledger.empty }.publishCount.env := hc.env
    _ = ⟨s.env.bindings.insert countVariable (Json.ofNat 0)⟩ := env_publishCount _

def renewed (s : Session) : Session := { s.branch with registry := s.registry }

theorem reset_alike_renewed (s : Session) : s.reset.Alike (s.renewed.following s.sent) := by
  obtain ⟨v, hr⟩ := s.reset_eq
  obtain ⟨event, hb⟩ := publishCount_eq { s with
    vars := ⟨s.env, Notifier.empty⟩, registry := Registry.empty, ledger := Ledger.empty,
    cancelled := false, raised := false, sent := [] }
  have he := s.env_reset
  unfold renewed following branch
  rw [hr] at he ⊢
  rw [hb]
  exact ⟨he, rfl, rfl, rfl, rfl, (List.append_nil _).symm, rfl, rfl⟩

theorem Alike.report (h : s.Alike t) : s.report = t.report := by
  rw [Session.report, Session.report, h.ledger]

/-- A session is another one without its past: the history is empty, the count is zero and shown,
and the session is not to stop. The other variables are the same, in the same order. -/
structure Clears (s t : Session) : Prop where
  others : t.env.unbind countVariable = s.env.unbind countVariable
  values : ∀ name, name ≠ countVariable → t.env.get? name = s.env.get? name
  registry : t.registry = s.registry
  listeners : t.vars.notifier.listeners = s.vars.notifier.listeners
  nextId : t.vars.notifier.nextId = s.vars.notifier.nextId
  plugins : t.plugins = s.plugins
  language : t.language = s.language
  sent : t.sent = s.sent
  ledger : t.ledger = Ledger.empty
  shown : t.env.get? countVariable = some (Json.ofNat 0)
  isCancelled : t.isCancelled = false

theorem clears_reset (s : Session) : s.Clears s.reset := by
  obtain ⟨v, hr⟩ := s.reset_eq
  obtain ⟨events, ht, -⟩ := s.told_reset
  have hl : s.reset.vars.notifier.listeners = s.vars.notifier.listeners := by
    rw [ht.fired, Notifier.fireAll_listeners]
  have hn : s.reset.vars.notifier.nextId = s.vars.notifier.nextId := by
    rw [ht.fired, Notifier.fireAll_nextId]
  have he : s.reset.env.unbind countVariable = s.env.unbind countVariable := by
    rw [env_reset, Environment.unbind, Table.erase_insert, Environment.unbind]
  have hv : ∀ name, s.reset.env.get? name =
      if countVariable = name then some (Json.ofNat 0) else s.env.get? name := by
    intro name
    rw [env_reset]
    exact Table.get?_insert
  have hshown : s.reset.env.get? countVariable = some (Json.ofNat 0) := by
    rw [hv, if_pos rfl]
  have hother : ∀ name, name ≠ countVariable → s.reset.env.get? name = s.env.get? name := by
    intro name hname
    rw [hv, if_neg hname.symm]
  rw [hr] at hl hn he hshown hother ⊢
  exact ⟨he, hother, rfl, hl, hn, rfl, rfl, rfl, rfl, hshown, rfl⟩

/-- In whatever state a session is, when it has been reset, every task gives the same result as in a
new session with its variables, scripts and templates, whose transport has been sent the same
before; or the task ends in neither. What is sent and recorded is the same, and so are the count,
the report, and the variables at the end. To reset a session clears its past and changes nothing
else. -/
theorem reset_renews (s : Session) :
    (∀ (host : Host) (task : Task) (depth : Nat), Resolution.Agree
      (fun t u => t.Alike (u.following s.sent) ∧ t.report = u.report)
      (task.run host depth) s.reset (task.run (host.after s.sent) depth) s.renewed) ∧
    s.Clears s.reset := by
  refine ⟨fun host task depth => ?_, s.clears_reset⟩
  have ha := (bisimulation_following host s.sent).task s.reset_alike_renewed depth task
  exact ha.mono fun t u h => ⟨h, h.report⟩

end Session

end ApiScript
