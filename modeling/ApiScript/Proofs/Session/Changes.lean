import ApiScript.Proofs.Table
import ApiScript.Session.Execution
import Mathlib.Logic.Relation

/-! # What a change of a session leaves as it was

Each change has its own part of a session to touch. What is said of whole runs is put together from
what is said of the changes here.
-/

namespace ApiScript

open Relation

variable {s t u : Session} {name : String} {α : Type}

/-! ## Bound variables -/

def Variables.Binds (v w : Variables) : Prop := ∃ name value, v.bind name value = .ok w

theorem Variables.Binds.isBound {v w : Variables} (h : v.Binds w) (hb : v.env.isBound name) :
    w.env.isBound name := by
  obtain ⟨n, value, h⟩ := h
  unfold Variables.bind Environment.bind at h
  split at h
  · cases h
  · rename_i env he
    split at he
    · cases he
    · cases he
      cases h
      have : v.env.bindings.contains name = true := hb
      simp [Environment.isBound, Table.contains_insert, this]

theorem Binding.run_binds (b : Binding α) (v : Variables) :
    ReflTransGen Variables.Binds v (b.run.run v).2 := by
  induction b generalizing v with
  | done result => exact .refl
  | look next ih => exact ih _ _
  | bindThen name value next ih =>
    change ReflTransGen Variables.Binds v (Binding.run _ v).2
    rw [Binding.run]
    split
    · exact ih _ _
    · rename_i w hw
      exact .head ⟨name, value, hw⟩ (ih _ _)

namespace Session

/-- A session is another one with some variables bound since. -/
def Rebinds (s t : Session) : Prop :=
  ∃ v, ReflTransGen Variables.Binds s.vars v ∧ t = { s with vars := v }

namespace Rebinds

theorem refl (s : Session) : s.Rebinds s := ⟨s.vars, .refl, rfl⟩

theorem trans (h : s.Rebinds t) (h' : t.Rebinds u) : s.Rebinds u := by
  obtain ⟨v, hv, rfl⟩ := h
  obtain ⟨w, hw, rfl⟩ := h'
  exact ⟨w, hv.trans hw, rfl⟩

theorem ledger (h : s.Rebinds t) : t.ledger = s.ledger := by
  obtain ⟨v, -, rfl⟩ := h
  rfl

theorem plugins (h : s.Rebinds t) : t.plugins = s.plugins := by
  obtain ⟨v, -, rfl⟩ := h
  rfl

theorem sent (h : s.Rebinds t) : t.sent = s.sent := by
  obtain ⟨v, -, rfl⟩ := h
  rfl

theorem isBound (h : s.Rebinds t) (hb : s.env.isBound name) : t.env.isBound name := by
  obtain ⟨v, hv, rfl⟩ := h
  induction hv with
  | refl => exact hb
  | tail _ h ih => exact h.isBound ih

end Rebinds

theorem rebinds_of_bind {value : Json} (h : s.bind name value = .ok t) : s.Rebinds t := by
  unfold bind at h
  split at h
  · cases h
  · rename_i v hv
    cases h
    exact ⟨v, .single ⟨name, value, hv⟩, rfl⟩

theorem rebinds_of_bindAll {bindings : List (String × Json)} (h : s.bindAll bindings = .ok t) :
    s.Rebinds t := by
  induction bindings generalizing s with
  | nil =>
    cases h
    exact .refl _
  | cons binding rest ih =>
    rw [bindAll] at h
    split at h
    · cases h
    · rename_i u hu
      exact (rebinds_of_bind hu).trans (ih h)

theorem rebinds_publishCount (s : Session) : s.Rebinds s.publishCount := by
  unfold publishCount
  split
  · exact .refl s
  · rename_i h
    exact rebinds_of_bind h

theorem not_isReserved_countVariable : Environment.isReserved countVariable = false := by decide

theorem publishCount_eq (s : Session) : ∃ event, s.publishCount = { s with
    vars := ⟨⟨s.env.bindings.insert countVariable (Json.ofNat s.ledger.failedAssertions)⟩,
      s.vars.notifier.fire event⟩ } := by
  unfold publishCount bind Variables.bind Environment.bind
  rw [not_isReserved_countVariable]
  exact ⟨_, rfl⟩

/-! ## Being asked to stop -/

@[simp] theorem observe_cancelled (s : Session) : s.observe.cancelled = s.isCancelled := by
  unfold observe isCancelled
  cases hc : s.cancelled <;> cases hr : s.raised <;> simp [fire, hc]

theorem observe_of_cancelled (h : s.cancelled = true) : s.observe = s := by
  unfold observe
  rw [h]
  rfl

theorem observe_of_not_isCancelled (h : s.isCancelled = false) : s.observe = s := by
  unfold observe
  rw [if_neg (by simp_all [isCancelled])]

theorem observe_eq (s : Session) : ∃ notifier,
    s.observe = { s with vars := ⟨s.vars.env, notifier⟩, cancelled := s.isCancelled } := by
  obtain ⟨vars, registry, ledger, cancelled, raised, plugins, language, sent⟩ := s
  cases cancelled <;> cases raised <;> exact ⟨_, rfl⟩

theorem clearCancelled_eq (s : Session) : ∃ notifier, s.clearCancelled =
    { s with vars := ⟨s.vars.env, notifier⟩, cancelled := false, raised := false } := by
  obtain ⟨vars, registry, ledger, cancelled, raised, plugins, language, sent⟩ := s
  cases cancelled <;> exact ⟨_, rfl⟩

@[simp] theorem clearCancelled_cancelled (s : Session) : s.clearCancelled.cancelled = false := by
  obtain ⟨notifier, h⟩ := s.clearCancelled_eq
  rw [h]

@[simp] theorem isCancelled_clearCancelled (s : Session) :
    s.clearCancelled.isCancelled = false := by
  obtain ⟨notifier, h⟩ := s.clearCancelled_eq
  rw [h]
  rfl

theorem reset_eq (s : Session) : ∃ v, s.reset =
    { s with vars := v, ledger := Ledger.empty, cancelled := false, raised := false } := by
  obtain ⟨v, -, hv⟩ := rebinds_publishCount { s with ledger := Ledger.empty }
  obtain ⟨notifier, hn⟩ := clearCancelled_eq { s with vars := v, ledger := Ledger.empty }
  unfold reset
  rw [hv, hn]
  exact ⟨_, rfl⟩

/-- All but the scripts, the listeners and the wish to stop is the same. -/
structure Keeps (s t : Session) : Prop where
  env : t.env = s.env
  ledger : t.ledger = s.ledger
  plugins : t.plugins = s.plugins
  sent : t.sent = s.sent

theorem keeps_observe (s : Session) : s.Keeps s.observe := by
  obtain ⟨notifier, h⟩ := s.observe_eq
  rw [h]
  exact ⟨rfl, rfl, rfl, rfl⟩

theorem keeps_clearCancelled (s : Session) : s.Keeps s.clearCancelled := by
  obtain ⟨notifier, h⟩ := s.clearCancelled_eq
  rw [h]
  exact ⟨rfl, rfl, rfl, rfl⟩

/-! ## Sending -/

section Sending

variable {host : Host} {request : Request}

theorem sending_eq (s : Session) (host : Host) (request : Request) :
    s.sending host request = { s with
      sent := s.sent ++ [request]
      raised := s.raised || (host.transport s.sent request).2 } := by
  unfold sending
  split
  · rename_i h
    rw [h, Bool.or_true]
    rfl
  · rename_i h
    rw [Bool.eq_false_iff.mpr h, Bool.or_false]

@[simp] theorem sending_ledger : (s.sending host request).ledger = s.ledger := by rw [sending_eq]

@[simp] theorem sending_plugins : (s.sending host request).plugins = s.plugins := by
  rw [sending_eq]

@[simp] theorem sending_sent : (s.sending host request).sent = s.sent ++ [request] := by
  rw [sending_eq]

@[simp] theorem sending_env : (s.sending host request).env = s.env := by
  rw [sending_eq]
  rfl

end Sending

/-! ## Recording -/

theorem absorb_eq (s : Session) (call : Call) : ∃ v, s.absorb call =
    { s with
      vars := v
      ledger := ⟨s.ledger.calls ++ [call],
        s.ledger.failedAssertions + max 1 call.failures.length⟩ } ∧
    ∀ name, s.env.isBound name → v.env.isBound name := by
  suffices h : ∀ n, ∃ v, Nat.repeat increment n s =
      { s with vars := v, ledger := ⟨s.ledger.calls, s.ledger.failedAssertions + n⟩ } ∧
      ∀ name, s.env.isBound name → v.env.isBound name by
    obtain ⟨v, hv, hb⟩ := h (max 1 call.failures.length)
    unfold absorb
    rw [hv]
    exact ⟨_, rfl, hb⟩
  intro n
  induction n with
  | zero => exact ⟨s.vars, rfl, fun _ h => h⟩
  | succ n ih =>
    obtain ⟨v, hv, hb⟩ := ih
    rw [Nat.repeat, hv]
    have hr := rebinds_publishCount
      { s with vars := v, ledger := ⟨s.ledger.calls, s.ledger.failedAssertions + n + 1⟩ }
    have hm := fun name h => hr.isBound (hb name h)
    obtain ⟨w, -, hw⟩ := hr
    rw [hw] at hm
    exact ⟨w, hw, hm⟩

end Session

end ApiScript
