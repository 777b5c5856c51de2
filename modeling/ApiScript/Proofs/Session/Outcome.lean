import ApiScript.Proofs.Session.Journal

/-! # What comes of running a script

A script that is run is recorded as passed or as failed, or is not recorded, be it that it was not
to run or that it ended with a fault. The rest of the session is as before, but for the variables. A
failed assertion never ends anything: wherever it came from, it is recorded.
-/

namespace ApiScript

variable {host : Host} {script m : Script} {s t u : Session} {result : Except Fault Unit}

inductive Outcome where
  | passed (call : Call)
  | skipped
  | failed (call : Call)
  | aborted (fault : Fault)

/-- What an outcome says of the session before, of the result and of the session after. -/
def Outcome.Describes (s : Session) (result : Except Fault Unit) (t : Session) : Outcome → Prop
  | passed call => result = .ok () ∧ call.failures = [] ∧
      t.ledger.calls = s.ledger.calls ++ [call] ∧
      t.ledger.failedAssertions = s.ledger.failedAssertions
  | skipped => result = .ok () ∧ t.ledger = s.ledger
  | failed call => result = .ok () ∧ t.ledger.calls = s.ledger.calls ++ [call] ∧
      t.ledger.failedAssertions = s.ledger.failedAssertions + max 1 call.failures.length
  | aborted fault => result = .error fault ∧ fault.isAssertionFailure = false ∧
      t.ledger = s.ledger

/-- All but the variables and the history is the same, save that a request may have been sent, at
which the transport may have raised the flag. -/
structure Session.KeepsRest (host : Host) (s t : Session) : Prop where
  registry : t.registry = s.registry
  plugins : t.plugins = s.plugins
  language : t.language = s.language
  listeners : t.vars.notifier.listeners = s.vars.notifier.listeners
  nextId : t.vars.notifier.nextId = s.vars.notifier.nextId
  cancelled : t.cancelled = s.cancelled
  sent : ∃ requests, requests.length ≤ 1 ∧ t.sent = s.sent ++ requests ∧
    t.raised = (s.raised || requests.any fun request => (host.transport s.sent request).2)

theorem Outcome.Describes.unique {o o' : Outcome} (h : o.Describes s result t)
    (h' : o'.Describes s result t) : o = o' := by
  have hone : ∀ call : Call, s.ledger.calls ≠ s.ledger.calls ++ [call] := by simp
  have hsame : ∀ c c' : Call, s.ledger.calls ++ [c] = s.ledger.calls ++ [c'] → c = c' := by simp
  have hcount : ∀ n k : Nat, n ≠ n + max 1 k := by omega
  cases o <;> cases o' <;> simp only [Describes] at h h' <;> grind

namespace Execution

/-- A script is skipped when its condition does not hold of the variables that it binds itself. -/
theorem ends_run_none : (run host script).Ends s (.ok none) t ↔
    ∃ m, s.registry.applyTemplates script = .ok m ∧ (bindEnv m).Ends s (.ok ()) t ∧
      conditionHolds m t = .ok false := by
  rw [ends_run_iff]
  constructor
  · intro h
    cases h with
    | skipped hm hb hc => exact ⟨_, completes_iff.mp hm, hb, hc⟩
  · rintro ⟨m, hm, hb, hc⟩
    exact .skipped (completes_iff.mpr hm) hb hc

theorem Exit.eq {P : Call → Prop} {found : Except Fault (Option Call)}
    (h : Exit host P s found t) : ∃ v requests, requests.length ≤ 1 ∧ t = { s with
      vars := v
      sent := s.sent ++ requests
      raised := s.raised || requests.any fun request => (host.transport s.sent request).2 } := by
  cases h with
  | unsent hu =>
    obtain ⟨v, -, rfl⟩ := hu
    exact ⟨v, [], Nat.zero_le _, by simp⟩
  | @unanswered u request _ hu =>
    obtain ⟨v, -, rfl⟩ := hu
    exact ⟨v, [request], Nat.le_refl _, by rw [Session.sending_eq]; simp⟩
  | @answered _ _ u request _ hu _ ht =>
    obtain ⟨v, -, rfl⟩ := hu
    obtain ⟨w, -, rfl⟩ := ht
    exact ⟨w, [request], Nat.le_refl _, by rw [Session.sending_eq]; simp⟩

end Execution

namespace Session

theorem Records.eq {found : Except Fault (Option Call)} (h : s.Records found result t) :
    ∃ v ledger, t = { s with vars := v, ledger } := by
  cases h with
  | nothing => exact ⟨_, _, rfl⟩
  | passed => exact ⟨_, _, rfl⟩
  | @failed call _ | @carried call =>
    obtain ⟨v, ht, -⟩ := s.absorb_eq call
    exact ⟨_, _, ht⟩
  | fault => exact ⟨_, _, rfl⟩

theorem Records.outcome {found : Except Fault (Option Call)} (h : u.Records found result t)
    (hl : u.ledger = s.ledger) :
    ∃ o : Outcome, o.Describes s result t ∧ (o = .skipped ↔ found = .ok none) := by
  cases h with
  | nothing => exact ⟨.skipped, ⟨rfl, hl⟩, by simp⟩
  | @passed call hc =>
    exact ⟨.passed call, ⟨rfl, hc, by rw [← hl]; rfl, by rw [← hl]; rfl⟩, by simp⟩
  | @failed call _ | @carried call =>
    obtain ⟨v, ht, -⟩ := u.absorb_eq call
    exact ⟨.failed call, ⟨rfl, by rw [ht, ← hl], by rw [ht, ← hl]⟩, by simp⟩
  | @fault f hf => exact ⟨.aborted f, ⟨rfl, hf, hl⟩, by simp⟩

end Session

theorem keepsRest_runScript (h : (runScript host script).Ends s result t) :
    s.KeepsRest host t := by
  obtain ⟨events, ht, -⟩ := Session.told_runScript h
  have hl : t.vars.notifier.listeners = s.vars.notifier.listeners := by
    rw [ht.fired, Notifier.fireAll_listeners]
  have hn : t.vars.notifier.nextId = s.vars.notifier.nextId := by
    rw [ht.fired, Notifier.fireAll_nextId]
  obtain ⟨found, u, hr, hu⟩ := ends_runScript.mp h
  obtain ⟨v, requests, hq, rfl⟩ := (Execution.exit_of_run s.plugins.confined_true hr).eq
  obtain ⟨w, ledger, rfl⟩ := hu.eq
  exact ⟨rfl, rfl, rfl, hl, hn, rfl, requests, hq, rfl, rfl⟩

theorem runScript_of_stuck {f : Fault} (h : s.registry.applyTemplates script = .error f) :
    (runScript host script).Ends s (.error f) s := by
  have hr : (Execution.run host script).Ends s (.error f) s :=
    Run.ends_bind.mpr (.inl ⟨f, Execution.ends_complete.mpr ⟨h.symm, rfl⟩, rfl⟩)
  have hf : f.isAssertionFailure = false := by
    cases Registry.stuck_of_error h with
    | cycle => rfl
    | missing => rfl
  exact ends_runScript.mpr ⟨_, _, hr, .fault hf⟩

theorem not_assertionFailure (host : Host) :
    Law.Holds (fun _ result _ => ∀ f, result = .error f → f.isAssertionFailure = false) host :=
  .of_keeps (fun _ _ h => nomatch h) (fun _ h => h) (fun _ f hf g h => by cases h; exact hf) <| by
    intro script s result t h f hr
    obtain ⟨found, u, -, hu⟩ := ends_runScript.mp (Resolution.ends_ofRun.mp h)
    cases hu with
    | fault hf =>
      cases hr
      exact hf
    | _ => cases hr

/-- A script that is run comes to one of four outcomes, of which it is skipped just when its
condition does not hold. All but the variables and the history stays, and everything does if a
template is amiss. No task ever ends with a failed assertion. -/
theorem runScript_outcome (host : Host) (script : Script) (s : Session) :
    ∃ result t, (runScript host script).Ends s result t ∧
      (∃! o : Outcome, o.Describes s result t) ∧
      (Outcome.skipped.Describes s result t ↔
        ∃ m u, s.registry.applyTemplates script = .ok m ∧
          (Execution.bindEnv m).Ends s (.ok ()) u ∧
          Execution.conditionHolds m u = .ok false) ∧
      s.KeepsRest host t ∧
      (∀ f, s.registry.applyTemplates script = .error f → result = .error f ∧ t = s) ∧
      ∀ (task : Task) f u, task.Ends host s (.error f) u → f.isAssertionFailure = false := by
  obtain ⟨result, t, h⟩ : ∃ result t, (runScript host script).Ends s result t := ⟨_, _, rfl⟩
  obtain ⟨found, u, hr, hu⟩ := ends_runScript.mp h
  have hl : u.ledger = s.ledger := Execution.run_ledger hr
  obtain ⟨o, ho, hs⟩ := hu.outcome hl
  refine ⟨result, t, h, ⟨o, ho, fun o' ho' => ho'.unique ho⟩, ?_, keepsRest_runScript h, ?_, ?_⟩
  · rw [show Outcome.skipped.Describes s result t ↔ found = .ok none from
      ⟨fun h => hs.mp (ho.unique h), fun h => hs.mpr h ▸ ho⟩]
    constructor
    · rintro rfl
      obtain ⟨m, hm, hb, hc⟩ := Execution.ends_run_none.mp hr
      exact ⟨m, u, hm, hb, hc⟩
    · rintro ⟨m, v, hm, hb, hc⟩
      exact (Run.Ends.unique hr (Execution.ends_run_none.mpr ⟨m, hm, hb, hc⟩)).1
  · intro f hf
    obtain ⟨hresult, ht⟩ := Run.Ends.unique h (runScript_of_stuck hf)
    exact ⟨hresult, ht⟩
  · intro task f v hf
    exact (not_assertionFailure host).ends hf f rfl

end ApiScript
