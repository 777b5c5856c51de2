import ApiScript.Proofs.Session.Bisimulation
import ApiScript.Proofs.Session.Outcome

/-! # Being asked to stop

A transport may ask the session to stop while it handles a request. The script that sent the request
runs as it would otherwise, and the session is to stop from then on until it is told to begin anew.
-/

namespace ApiScript

open Relation

variable {host : Host} {script : Script} {s t u v : Session} {result : Except Fault Unit}

/-! ## The script that runs -/

/-- The host that answers as another one does, and never asks a session to stop. -/
def Host.calm (host : Host) : Host :=
  { host with transport := fun before request => ((host.transport before request).1, false) }

def Session.SameButRaised (s t : Session) : Prop := ∃ raised, t = { s with raised }

theorem Session.SameButRaised.publishCount (h : s.SameButRaised t) :
    s.publishCount.SameButRaised t.publishCount := by
  obtain ⟨raised, rfl⟩ := h
  refine ⟨raised, ?_⟩
  unfold Session.publishCount Session.bind
  dsimp only
  cases s.vars.bind countVariable (Json.ofNat s.ledger.failedAssertions) <;> rfl

theorem Session.SameButRaised.bisimulation (host : Host) :
    RunBisimulation host host.calm Session.SameButRaised where
  view := by
    rintro s t ⟨raised, rfl⟩
    exact ⟨rfl, rfl, rfl⟩
  registry := by
    rintro s t ⟨raised, rfl⟩
    rfl
  answer := by
    rintro s t ⟨raised, rfl⟩ request
    rfl
  bound := by
    rintro s t ⟨raised, rfl⟩ α b
    exact ⟨raised, rfl⟩
  sending := by
    rintro s t ⟨raised, rfl⟩ request
    rw [sending_eq, sending_eq]
    exact ⟨_, rfl⟩
  addCall := by
    rintro s t ⟨raised, rfl⟩ call
    exact ⟨raised, rfl⟩
  increment := by
    rintro s t ⟨raised, rfl⟩
    exact SameButRaised.publishCount ⟨raised, rfl⟩

/-- A script runs as it would if the transport did not ask the session to stop. -/
theorem runScript_calm (h : (runScript host script).Ends u result v) :
    (runScript host.calm script).Ends u result { v with raised := u.raised } := by
  have hu : u.SameButRaised u := ⟨u.raised, rfl⟩
  obtain ⟨_, hw, raised, rfl⟩ :=
    ((Session.SameButRaised.bisimulation host).runScript hu script).ends h
  obtain ⟨requests, -, -, hr⟩ := (keepsRest_runScript hw).sent
  have hcalm : (requests.any fun request => (host.calm.transport u.sent request).2) = false :=
    List.any_eq_false.mpr fun _ _ => Bool.false_ne_true
  rw [hcalm, Bool.or_false] at hr
  exact hr ▸ hw

theorem sent_of_raised (h : (runScript host script).Ends u result v) (hu : u.raised = false)
    (hv : v.raised = true) :
    ∃ request, v.sent = u.sent ++ [request] ∧ (host.transport u.sent request).2 = true := by
  obtain ⟨requests, hl, hs, hr⟩ := (keepsRest_runScript h).sent
  rw [hu, hv, Bool.false_or] at hr
  match requests, hl with
  | [], _ => cases hr
  | [request], _ => exact ⟨request, hs, by simpa using hr.symm⟩

/-! ## The flags -/

/-- What is done to a session does not take back that it is to stop, nor does the session observe
this without having been asked to. -/
structure Session.KeepsFlags (s t : Session) : Prop where
  lasting : s.isCancelled = true → t.isCancelled = true
  asked : (s.cancelled = true → s.raised = true) → t.cancelled = true → t.raised = true

namespace Session

theorem keepsFlags_of (hc : t.cancelled = s.cancelled) (hr : s.raised = true → t.raised = true) :
    s.KeepsFlags t where
  lasting h := by
    rw [isCancelled, Bool.or_eq_true] at h ⊢
    exact h.imp (hc ▸ ·) hr
  asked h ht := hr (h (hc ▸ ht))

theorem KeepsFlags.trans (h : s.KeepsFlags u) (h' : u.KeepsFlags t) : s.KeepsFlags t where
  lasting hs := h'.lasting (h.lasting hs)
  asked ha := h'.asked (h.asked ha)

theorem Rebinds.keepsFlags (h : s.Rebinds t) : s.KeepsFlags t := by
  obtain ⟨v, -, rfl⟩ := h
  exact keepsFlags_of rfl id

theorem keepsFlags_publishCount (s : Session) (ledger : Ledger) :
    s.KeepsFlags { s with ledger }.publishCount :=
  (keepsFlags_of rfl id : s.KeepsFlags { s with ledger }).trans (rebinds_publishCount _).keepsFlags

theorem keepsFlags_observe (s : Session) : s.KeepsFlags s.observe := by
  obtain ⟨notifier, h⟩ := s.observe_eq
  rw [h]
  refine ⟨fun hs => ?_, fun ha ht => ?_⟩
  · simpa [isCancelled] using hs
  · exact ((Bool.or_eq_true _ _).mp ht).elim ha id

theorem keepsFlags_within (host : Host) :
    Law.HoldsWithin (fun s _ t => s.KeepsFlags t) host where
  refl _ := keepsFlags_of rfl id
  trans h h' := h.trans h'
  fault _ _ _ := keepsFlags_of rfl id
  observe := keepsFlags_observe
  setScript _ _ _ := keepsFlags_of rfl id
  setTemplate _ _ _ := keepsFlags_of rfl id
  runScript _ _ _ _ h := by
    have hk := keepsRest_runScript (Resolution.ends_ofRun.mp h)
    obtain ⟨requests, -, -, hr⟩ := hk.sent
    exact keepsFlags_of hk.cancelled fun hs => by rw [hr, hs, Bool.true_or]

end Session

/-- An operation after which a session is no longer to stop, but for what happens in it. -/
def Operation.beginsAnew : Operation → Bool
  | .task t => t.isExecution
  | .reset => true
  | _ => false

namespace Session

variable {op : Operation}

theorem keepsFlags_operation (h : op.Ends host s result t) (hop : op.beginsAnew = false) :
    s.KeepsFlags t := by
  cases h with
  | @task task _ _ h =>
    obtain ⟨depth, h⟩ := h.body
    have hs : task.opening s = s := if_neg (by simpa [Operation.beginsAnew] using hop)
    rw [hs] at h
    exact (keepsFlags_within host).body depth task h
  | bind h => exact (rebinds_of_bind h).keepsFlags
  | increment | resetCount =>
    exact keepsFlags_publishCount s _
  | raise => exact keepsFlags_of rfl fun _ => rfl
  | cancel =>
    have hr : s.KeepsFlags s.raise := keepsFlags_of rfl fun _ => rfl
    exact hr.trans s.raise.keepsFlags_observe
  | reset => cases hop
  | reserved | unbind | setScript | setTemplate | setLanguage | addCall | listen | unlisten =>
    exact keepsFlags_of rfl id

/-- A session that has observed that it is to stop has been asked to. -/
theorem asked_operation (h : op.Ends host s result t)
    (ha : s.cancelled = true → s.raised = true) : t.cancelled = true → t.raised = true := by
  cases hop : op.beginsAnew with
  | false => exact (keepsFlags_operation h hop).asked ha
  | true =>
    cases h with
    | @task task _ _ h =>
      obtain ⟨depth, h⟩ := h.body
      refine ((keepsFlags_within host).body depth task h).asked ?_
      rw [Task.opening, if_pos (by exact hop), clearCancelled_cancelled]
      exact nofun
    | reset =>
      obtain ⟨v, hv⟩ := s.reset_eq
      rw [hv]
      exact nofun
    | _ => cases hop

theorem asked_of_reaches {new : Session} {allowed : Operation → Prop} (hn : new.IsNew)
    (h : new.Reaches allowed s) : s.cancelled = true → s.raised = true := by
  induction h with
  | refl =>
    obtain ⟨u, hu, -, -, hc⟩ := hn.rebinds
    exact hu.keepsFlags.asked fun h => absurd h (by simp [hc])
  | tail _ h ih =>
    obtain ⟨host, op, result, -, -, h⟩ := h
    exact asked_operation h ih

theorem isCancelled_of_reaches (hs : s.isCancelled = true)
    (h : s.Reaches (fun op => op.beginsAnew = false) t) : t.isCancelled = true := by
  induction h with
  | refl => exact hs
  | tail _ h ih =>
    obtain ⟨host, op, result, -, hop, h⟩ := h
    exact (keepsFlags_operation h hop).lasting ih

end Session

end ApiScript
