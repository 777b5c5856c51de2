import ApiScript.Proofs.Session.Operation

/-! # The count of failed assertions

The count is kept beside the history, and yet it is always what the history says: each record adds
to the one what it adds to the other.
-/

namespace ApiScript

open Relation

variable {host : Host} {s t u : Session} {result : Except Fault Unit}

def Ledger.Balanced (l : Ledger) : Prop := l.failedAssertions = l.recordedFailures

theorem Ledger.recordedFailures_append (l : Ledger) (call : Call) (n : Nat) :
    recordedFailures ⟨l.calls ++ [call], n⟩ = l.recordedFailures + call.failures.length := by
  obtain ⟨calls, m⟩ := l
  unfold recordedFailures
  induction calls with
  | nil => simp
  | cons first rest ih => simpa [Nat.add_assoc] using ih

theorem Ledger.recordedFailures_eq_length (l : Ledger) :
    l.recordedFailures = (l.calls.flatMap fun c => c.failures).length := by
  unfold recordedFailures
  induction l.calls with
  | nil => rfl
  | cons call rest ih => rw [List.foldr_cons, List.flatMap_cons, List.length_append, ih]

abbrev Call.Failing (c : Call) : Prop := c.failures ≠ []

namespace Session

theorem balanced_addCall {call : Call} (h : s.ledger.Balanced) (hc : call.failures = []) :
    (s.addCall call).ledger.Balanced := by
  have hr := s.ledger.recordedFailures_append call s.ledger.failedAssertions
  rw [hc, ← h] at hr
  exact hr.symm

theorem balanced_absorb {call : Call} (h : s.ledger.Balanced) (hc : call.Failing) :
    (s.absorb call).ledger.Balanced := by
  obtain ⟨v, ht, -⟩ := s.absorb_eq call
  have hm : max 1 call.failures.length = call.failures.length :=
    Nat.max_eq_right (List.length_pos_iff.mpr hc)
  rw [ht, hm, Ledger.Balanced, Ledger.recordedFailures_append, ← h]

theorem Records.balanced {found : Except Fault (Option Call)} (h : s.Records found result t)
    (hf : Confined Call.Failing found) (hs : s.ledger.Balanced) : t.ledger.Balanced := by
  cases h with
  | nothing => exact hs
  | passed hc => exact balanced_addCall hs hc
  | failed hc => exact balanced_absorb hs hc
  | carried => exact balanced_absorb hs hf
  | fault => exact hs

def KeepsBalance : Law := fun s _ t => s.ledger.Balanced → t.ledger.Balanced

theorem keepsBalance_of_ledger (h : t.ledger = s.ledger) : KeepsBalance s result t :=
  fun hs => h ▸ hs

end Session

/-- Unless plug-ins or the transport carry failed assertions without failures, whatever a task does
keeps the balance. -/
theorem balancing (hh : host.Confined Call.Failing) :
    (Law.Under Call.Failing Session.KeepsBalance).Holds host := by
  refine .under (fun h => Session.keepsBalance_of_ledger h.ledger) (fun h h' hs => h' (h hs)) ?_ ?_
  · exact fun s f _ => Session.keepsBalance_of_ledger rfl
  · intro script s result t hp h hs
    obtain ⟨found, u, hr, hu⟩ := ends_runScript.mp h
    have hx := Execution.exit_of_run hp hr
    exact hu.balanced (hx.confined hh) (hx.ledger ▸ hs)

namespace Operation

def KeepsCount : Operation → Prop
  | .addCall _ | .increment | .resetCount => False
  | _ => True

theorem Ends.keepsBalance {op : Operation} (hh : host.Confined Call.Failing) (hk : op.KeepsCount)
    (h : op.Ends host s result t) : Session.KeepsBalance.Under Call.Failing s result t := by
  cases h with
  | task h => exact (balancing hh).ends h
  | bind h =>
    have hr := Session.rebinds_of_bind h
    exact ⟨hr.plugins, fun _ => Session.keepsBalance_of_ledger hr.ledger⟩
  | cancel =>
    have hr := s.raise.keeps_observe
    exact ⟨hr.plugins, fun _ => Session.keepsBalance_of_ledger hr.ledger⟩
  | reset =>
    obtain ⟨v, hv⟩ := s.reset_eq
    rw [hv]
    exact ⟨rfl, fun _ _ => rfl⟩
  | addCall | increment | resetCount => exact hk.elim
  | _ => exact ⟨rfl, fun _ => Session.keepsBalance_of_ledger rfl⟩

end Operation

namespace Session

theorem IsNew.ledger (h : s.IsNew) : s.ledger = Ledger.empty := by
  obtain ⟨u, hu, -, hl, -⟩ := h.rebinds
  rw [hu.ledger, hl]

theorem balanced_of_steps (hp : s.plugins.Confined Call.Failing) (hs : s.ledger.Balanced)
    (h : ReflTransGen (Step Call.Failing Operation.KeepsCount) s t) :
    t.plugins = s.plugins ∧ t.ledger.Balanced := by
  induction h with
  | refl => exact ⟨rfl, hs⟩
  | tail _ h ih =>
    obtain ⟨host, op, result, hh, hk, h⟩ := h
    obtain ⟨hu, hb⟩ := ih
    obtain ⟨ht, hkb⟩ := h.keepsBalance hh hk
    exact ⟨ht.trans hu, hkb (hu ▸ hp) hb⟩

/-- Whatever is done to a new session, be it with a fault or not, the count is the number of failed
assertions in the history, and the report tells that number, or one more for an empty history.
Nothing that is bound changes the count. -/
theorem count_agrees (hs : s.IsNew) (hp : s.plugins.Confined Call.Failing)
    (h : ReflTransGen (Step Call.Failing Operation.KeepsCount) s t) :
    t.ledger.failedAssertions = (t.ledger.calls.flatMap fun c => c.failures).length ∧
      t.report = t.ledger.failedAssertions + (if t.ledger.calls.isEmpty then 1 else 0) ∧
      (∀ name value u, t.bind name value = .ok u → u.ledger = t.ledger) ∧
      ∀ host script found u, (Execution.run host script).Ends t found u → u.ledger = t.ledger := by
  have hb : t.ledger.Balanced := (balanced_of_steps hp (by rw [hs.ledger]; rfl) h).2
  refine ⟨?_, ?_, ?_, ?_⟩
  · rw [hb, Ledger.recordedFailures_eq_length]
  · rw [report, hb]
  · intro name value u hu
    exact (rebinds_of_bind hu).ledger
  · intro host script found u hu
    exact Execution.run_ledger hu

theorem count_agrees_failing :
    ∃ s t, start Environment.empty Settings.standard Plugins.standard = .ok s ∧
      ReflTransGen (Step Call.Failing Operation.KeepsCount) s t ∧
      t.ledger.calls.length = 1 ∧ t.ledger.failedAssertions = 1 ∧
      t.ledger.failedAssertions = (t.ledger.calls.flatMap fun c => c.failures).length ∧
      t.report = t.ledger.failedAssertions + (if t.ledger.calls.isEmpty then 1 else 0) := by
  obtain ⟨s, t, hs, hp, ht, hc, hf⟩ : ∃ s t,
      start Environment.empty Settings.standard Plugins.standard = .ok s ∧
      s.plugins = Plugins.standard ∧
      (Task.documents [.object [("GET", .string "a"),
        ("assert", .object [("bound", .string "b")])]]).Ends (.always ⟨200, [], ""⟩) s (.ok ()) t ∧
      t.ledger.calls.length = 1 ∧ t.ledger.failedAssertions = 1 :=
    ⟨_, _, rfl, rfl, ⟨1, rfl⟩, rfl, rfl⟩
  have hr : ReflTransGen (Step Call.Failing Operation.KeepsCount) s t :=
    .single ⟨_, .task _, _, Host.always_confined _, trivial, .task ht⟩
  have hn : s.IsNew := .inl ⟨_, _, _, hs⟩
  obtain ⟨hcount, hreport, -⟩ := count_agrees hn (hp ▸ Plugins.standard_confined _) hr
  exact ⟨s, t, hs, hr, hc, hf, hcount, hreport⟩

/-- An extractor that fails with an assertion on a call without failures is counted all the same. So
plug-ins have to be confined, and not only the transport. -/
theorem count_exceeds_history :
    ¬ ∀ s t : Session, s.IsNew → ReflTransGen (Step Call.Failing Operation.KeepsCount) s t →
      t.ledger.failedAssertions = (t.ledger.calls.flatMap fun c => c.failures).length := by
  intro h
  let call : Call := ⟨⟨none, [], []⟩, none, none, [], 0⟩
  let task := Task.documents [.object [("bind", .object [("fail", .null)])]]
  obtain ⟨s, t, hs, ht, hcalls, hcount⟩ : ∃ s t,
      start Environment.empty Settings.standard (Plugins.failingWith call) = .ok s ∧
      task.Ends (.always ⟨200, [], ""⟩) s (.ok ()) t ∧
      t.ledger.calls = [call] ∧ t.ledger.failedAssertions = 1 :=
    ⟨_, _, rfl, ⟨1, rfl⟩, rfl, rfl⟩
  have hsame := h s t (.inl ⟨_, _, _, hs⟩)
    (.single ⟨_, .task _, _, Host.always_confined _, trivial, .task ht⟩)
  rw [hcalls, hcount] at hsame
  cases hsame

end Session

end ApiScript
