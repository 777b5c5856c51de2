import ApiScript.Proofs.Session.Moments
import ApiScript.Proofs.Session.Renewal

/-! # The count that is shown

The count of failed assertions is shown by a variable, which scripts may bind like any other. While
nothing does so, the variable shows the count wherever it can be looked at; and when something has,
the next change of the count is shown again.
-/

namespace ApiScript

variable {host : Host} {s t u v : Session} {script m : Script} {name : String}
  {result : Except Fault Unit} {deeds : List Deed}

/-! ## Names that a run spares -/

namespace Execution

/-- A script that runs never comes to bind a name, be it among its variables or by an extractor. -/
def Spares (host : Host) (script : Script) (s : Session) (name : String) : Prop :=
  ∀ b x w, Comes host script s b x → ¬ b.Attempts x.vars name w

theorem Visits.ledger (h : Visits host script s t) : t.ledger = s.ledger :=
  h.rule (P := fun u => u.ledger = s.ledger) rfl
    (fun _ hu _ => Session.sending_ledger.trans hu) (fun _ _ _ hx _ _ => hx)

theorem Visits.plugins (h : Visits host script s t) : t.plugins = s.plugins :=
  h.rule (P := fun u => u.plugins = s.plugins) rfl
    (fun _ hu _ => Session.sending_plugins.trans hu) (fun _ _ _ hx _ _ => hx)

theorem Visits.get?_eq (h : Visits host script s t) (hs : Spares host script s name) :
    t.env.get? name = s.env.get? name :=
  h.rule (P := fun u => u.env.get? name = s.env.get? name) rfl
    (fun _ hu _ => by rwa [Session.sending_env])
    (fun b x hc hx v hv => (hv.get?_eq fun w => hs b x w hc).trans hx)

theorem script_of_exchange {call : CallContext} (h : (exchange host m).Ends s (.ok call) t) :
    call.script = m := by
  cases ends_exchange_iff.mp h with
  | silent | answered => rfl

/-- A script spares a name that it has not among its variables and that its extractors, as they are
specified, do not try. -/
theorem spares_of_targets (hm : s.registry.applyTemplates script = .ok m)
    (henv : ∀ fields, m.directive? "env" = some (.object fields) → name ∉ Fields.names fields)
    (hbind : ∀ fields, .object fields ∈ m.list "bind" → ∀ key spec, (key, spec) ∈ fields →
      ∀ x plugin call v w, x.plugins = s.plugins → extractor x key = .ok plugin →
        ¬ (plugin spec call).Attempts v name w) : Spares host script s name := by
  have hcompleted : ∀ {found u}, (complete script).Ends s (.ok found) u → found = m := by
    intro found u h
    cases (ends_complete.mp h).1.trans hm
    rfl
  intro b x w hc
  have hplugins : x.plugins = s.plugins := (Visits.binding hc .here).plugins
  cases hc with
  | bindVariables hfound hd =>
    obtain rfl := hcompleted hfound
    exact Binding.not_attempts_bindEach (henv _ hd)
  | @extractor found call before after fields rest key spec plugin _ _ _ hfound _ _ _ he hl _ hp =>
    obtain rfl := hcompleted hfound
    rw [script_of_exchange he] at hl
    have hmem : .object (fields ++ (key, spec) :: rest) ∈ found.list "bind" := by
      simp [hl]
    exact hbind _ hmem key spec (by simp) x plugin call x.vars w hplugins hp

end Execution

def Deed.Spares (host : Host) (name : String) : Deed → Prop
  | .read _ => True
  | .run _ script before _ _ => Execution.Spares host script before name

def Operation.Spares (host : Host) (s : Session) (name : String) : Operation → Prop
  | .bind other _ | .unbind other => other ≠ name
  | .task t => ∀ depth, ∀ deed ∈ (t.course host depth s).deeds, deed.Spares host name
  | _ => True

namespace Session

/-- Sessions that come about from new ones without that anything binds or unbinds a name: by
operations, on the way of a task, and at the moments of a script that is run. -/
inductive Spared (name : String) : Session → Prop where
  | new {s : Session} : s.IsNew → Spared name s
  | operation {host : Host} {op : Operation} {result : Except Fault Unit} {s t : Session} :
      Spared name s → op.Ends host s result t → op.Spares host s name → Spared name t
  | way {host : Host} {task : Task} {depth : Nat} {before : List Deed}
      {result : Except Fault Unit} {s t : Session} : Spared name s →
      before <+: (task.course host depth s).deeds → Trail host (task.opening s) before result t →
      (∀ deed ∈ before, deed.Spares host name) → Spared name t
  | moment {host : Host} {script : Script} {s t : Session} : Spared name s →
      Execution.Visits host script s t → Execution.Spares host script s name → Spared name t

/-! ## The variable that shows the count -/

def ShowsCount (s : Session) : Prop :=
  s.env.get? countVariable = some (Json.ofNat s.ledger.failedAssertions)

theorem ShowsCount.of_keeps (h : s.ShowsCount)
    (he : t.env.get? countVariable = s.env.get? countVariable)
    (hl : t.ledger.failedAssertions = s.ledger.failedAssertions) : t.ShowsCount := by
  rw [ShowsCount, he, hl]
  exact h

theorem Keeps.showsCount (hk : s.Keeps t) (h : s.ShowsCount) : t.ShowsCount :=
  h.of_keeps (by rw [hk.env]) (by rw [hk.ledger])

theorem showsCount_publishCount (s : Session) : s.publishCount.ShowsCount := by
  obtain ⟨event, h⟩ := s.publishCount_eq
  rw [h]
  exact Table.get?_insert.trans (if_pos rfl)

theorem showsCount_increment (s : Session) : s.increment.ShowsCount :=
  showsCount_publishCount _

theorem showsCount_resetCount (s : Session) : s.resetCount.ShowsCount :=
  showsCount_publishCount _

theorem showsCount_branch (s : Session) : s.branch.ShowsCount := showsCount_publishCount _

theorem showsCount_reset (s : Session) : s.reset.ShowsCount := by
  have hc := s.clears_reset
  rw [ShowsCount, hc.shown, hc.ledger]
  rfl

theorem ShowsCount.addCall (h : s.ShowsCount) (call : Call) : (s.addCall call).ShowsCount :=
  h.of_keeps rfl rfl

theorem showsCount_absorb (s : Session) (call : Call) : (s.absorb call).ShowsCount := by
  obtain ⟨n, hn⟩ : ∃ n, max 1 call.failures.length = n + 1 :=
    Nat.exists_eq_add_one.mpr (by omega)
  unfold absorb
  rw [hn, Nat.repeat]
  exact (showsCount_increment _).addCall call

theorem ShowsCount.records {found : Except Fault (Option Call)} (h : u.ShowsCount)
    (hr : u.Records found result t) : t.ShowsCount := by
  cases hr with
  | nothing => exact h
  | passed => exact h.addCall _
  | failed => exact showsCount_absorb ..
  | carried => exact showsCount_absorb ..
  | fault => exact h

/-! ## What keeps the count shown -/

theorem get?_of_bind {other : String} {value : Json} (h : s.bind other value = .ok t)
    (hne : other ≠ name) : t.env.get? name = s.env.get? name := by
  unfold bind at h
  split at h
  · cases h
  · cases h
    exact Variables.get?_of_bind ‹_› hne

theorem get?_unbind {other : String} (s : Session) (hne : other ≠ name) :
    (s.unbind other).env.get? name = s.env.get? name := by
  change (s.vars.unbind other).env.get? name = s.vars.env.get? name
  unfold Variables.unbind
  split
  · rfl
  · exact Table.get?_erase.trans (if_neg hne)

theorem ShowsCount.runScript (h : s.ShowsCount) (hs : Execution.Spares host script s countVariable)
    (hr : (runScript host script).Ends s result t) : t.ShowsCount := by
  obtain ⟨found, u, hrun, hu⟩ := ends_runScript.mp hr
  have hv := Execution.visits_of_run hrun
  exact (h.of_keeps (hv.get?_eq hs) (by rw [hv.ledger])).records hu

/-- A script that changes the count leaves it shown, whatever it binds. -/
theorem showsCount_of_count_ne (hr : (ApiScript.runScript host script).Ends s result t)
    (hne : t.ledger.failedAssertions ≠ s.ledger.failedAssertions) : t.ShowsCount := by
  obtain ⟨found, u, hrun, hu⟩ := ends_runScript.mp hr
  have hl : u.ledger = s.ledger := Execution.run_ledger hrun
  cases hu with
  | nothing | fault => exact (hne (by rw [hl])).elim
  | passed => exact (hne (by rw [← hl]; rfl)).elim
  | failed => exact showsCount_absorb ..
  | carried => exact showsCount_absorb ..

theorem ShowsCount.trail (h : s.ShowsCount) (ht : Trail host s deeds result t)
    (hd : ∀ deed ∈ deeds, deed.Spares host countVariable) : t.ShowsCount := by
  induction ht with
  | start => exact h
  | settle _ hs ih =>
    have hu := ih hd
    cases hs with
    | observe => exact (keeps_observe _).showsCount hu
    | setScript => exact hu
    | setTemplate => exact hu
  | fault _ _ ih => exact ih hd
  | read _ _ ih => exact ih fun deed hm => hd deed (List.mem_append_left _ hm)
  | run pending _ hr ih =>
    have hu := ih fun deed hm => hd deed (List.mem_append_left _ hm)
    exact hu.runScript (hd _ (List.mem_append_right _ List.mem_cons_self)) hr

theorem ShowsCount.opening (h : s.ShowsCount) (task : Task) : (task.opening s).ShowsCount := by
  unfold Task.opening
  split
  · exact (keeps_clearCancelled s).showsCount h
  · exact h

theorem ShowsCount.task {task : Task} (h : s.ShowsCount) (ht : task.Ends host s result t)
    (hs : (Operation.task task).Spares host s countVariable) : t.ShowsCount := by
  obtain ⟨depth, ht⟩ := ht
  obtain ⟨found, u, htrail, he⟩ := task.hasTrail_course host depth s
  have hc := (task.ending_course host depth s).trans ht
  rcases he with he | ⟨he, -⟩
  · cases hc.symm.trans he
    exact (h.opening task).trail htrail (hs depth)
  · cases hc.symm.trans he

theorem ShowsCount.operation {op : Operation} (h : s.ShowsCount) (ho : op.Ends host s result t)
    (hs : op.Spares host s countVariable) : t.ShowsCount := by
  cases ho with
  | task ht => exact h.task ht hs
  | bind hb => exact h.of_keeps (get?_of_bind hb hs) (by rw [(rebinds_of_bind hb).ledger])
  | reserved => exact h
  | unbind => exact h.of_keeps (s.get?_unbind hs) rfl
  | setScript => exact h
  | setTemplate => exact h
  | setLanguage => exact h
  | addCall => exact h.addCall _
  | increment => exact showsCount_increment s
  | resetCount => exact showsCount_resetCount s
  | cancel => exact (keeps_observe s.raise).showsCount h
  | raise => exact h
  | reset => exact showsCount_reset s
  | listen => exact h
  | unlisten => exact h

theorem IsNew.showsCount (h : s.IsNew) : s.ShowsCount := by
  rcases h with ⟨env, settings, plugins, h⟩ | ⟨other, rfl⟩
  · unfold start at h
    dsimp only at h
    split at h
    · cases h
    · cases h
      exact showsCount_publishCount _
  · exact showsCount_branch other

theorem Spared.showsCount (h : s.Spared countVariable) : s.ShowsCount := by
  induction h with
  | new h => exact h.showsCount
  | operation _ ho hs ih => exact ih.operation ho hs
  | way _ _ ht hs ih => exact (ih.opening _).trail ht hs
  | moment _ hv hs ih => exact ih.of_keeps (hv.get?_eq hs) (by rw [hv.ledger])

theorem Spared.run {task : Task} {depth : Nat} {before after : List Deed} {pending : Bool}
    (h : s.Spared name)
    (hd : (task.course host depth s).deeds = before ++ .run pending script u result t :: after)
    (hb : ∀ deed ∈ before, deed.Spares host name) : u.Spared name ∧
      (Execution.Spares host script u name → ∀ v, Execution.Visits host script u v →
        v.Spared name) := by
  obtain ⟨found, w, htrail, -⟩ := task.hasTrail_course host depth s
  have hu : u.Spared name := h.way (hd ▸ List.prefix_append _ _) (htrail.begins hd).1 hb
  exact ⟨hu, fun hs v hv => hu.moment hv hs⟩

/-- While nothing binds or unbinds the variable for the count, it is bound to the count of failed
assertions, in every session that comes about: after any operations, wherever a task comes to run a
script, and at each moment of that. Whatever has been done before, the count is shown again whenever
it is changed, and in a branch. To bind and to unbind variables, the one for the count among them,
never changes the count. -/
theorem count_is_shown :
    (∀ s : Session, s.Spared countVariable → s.ShowsCount) ∧
    (∀ (s : Session) host (task : Task) depth before pending script u result t after,
      s.Spared countVariable →
      (task.course host depth s).deeds = before ++ .run pending script u result t :: after →
      (∀ deed ∈ before, deed.Spares host countVariable) → u.Spared countVariable ∧
        (Execution.Spares host script u countVariable →
          ∀ v, Execution.Visits host script u v → v.Spared countVariable)) ∧
    (∀ s : Session, s.increment.ShowsCount ∧ s.resetCount.ShowsCount ∧ s.reset.ShowsCount ∧
      s.branch.ShowsCount ∧ ∀ call, (s.absorb call).ShowsCount) ∧
    (∀ host script s result t, (ApiScript.runScript host script).Ends s result t →
      t.ledger.failedAssertions ≠ s.ledger.failedAssertions → t.ShowsCount) ∧
    (∀ (s t : Session) name value, s.bind name value = .ok t → t.ledger = s.ledger) ∧
    (∀ (s : Session) name, (s.unbind name).ledger = s.ledger) ∧
    ∀ host script s t, Execution.Visits host script s t → t.ledger = s.ledger := by
  refine ⟨fun s h => h.showsCount, ?_, fun s => ?_, ?_, ?_, fun s name => rfl, ?_⟩
  · exact fun _ _ _ _ _ _ _ _ _ _ _ h hd hb => h.run hd hb
  · exact ⟨showsCount_increment s, showsCount_resetCount s, showsCount_reset s,
      showsCount_branch s, showsCount_absorb s⟩
  · exact fun _ _ _ _ _ hr hne => showsCount_of_count_ne hr hne
  · exact fun s t name value h => (rebinds_of_bind h).ledger
  · exact fun _ _ _ _ h => h.ledger

theorem count_is_shown_failing :
    let script : Script := ⟨none, [], [("GET", .string "a"),
      ("assert", .object [("bound", .string "c")]), ("bind", .object [("text", .string "b")]),
      ("env", .object [("a", .null)])]⟩
    let host := Host.always ⟨200, [], ""⟩
    ∃ s t u, start Environment.empty Settings.standard Plugins.standard = .ok s ∧
      (Task.script script).Ends host s (.ok ()) t ∧ t.Spared countVariable ∧
      t.env.get? "a" = some .null ∧ t.env.get? "b" = some (.string "") ∧
      t.ledger.failedAssertions = 1 ∧ t.env.get? countVariable = some (Json.ofNat 1) ∧
      t.bind countVariable .null = .ok u ∧ u.ledger = t.ledger ∧ ¬ u.ShowsCount ∧
      u.increment.ShowsCount := by
  intro script host
  obtain ⟨s, t, u, hs, hplugins, ht, ha, hb, hcount, hu, hnull⟩ : ∃ s t u : Session,
      start Environment.empty Settings.standard Plugins.standard = .ok s ∧
      s.plugins = Plugins.standard ∧ (ApiScript.runScript host script).Ends s (.ok ()) t ∧
      t.env.get? "a" = some .null ∧ t.env.get? "b" = some (.string "") ∧
      t.ledger.failedAssertions = 1 ∧ t.bind countVariable .null = .ok u ∧
      u.env.get? countVariable = some .null :=
    ⟨_, _, _, rfl, rfl, rfl, rfl, rfl, rfl, rfl, rfl⟩
  have hcomplete : (Execution.complete script).Ends s (.ok script) s := rfl
  have hspares : Execution.Spares host script s countVariable := by
    refine Execution.spares_of_targets (Execution.ends_complete.mp hcomplete).1.symm ?_ ?_
    · intro fields hd
      cases hd
      decide
    · intro fields hf key spec hk x plugin call v w hx hp
      cases List.mem_singleton.mp
        (show Json.object fields ∈ [Json.object [("text", .string "b")]] from hf)
      cases List.mem_singleton.mp hk
      have htext : Execution.extractor x "text" = .ok Extractor.text := by
        rw [Execution.extractor, hx, hplugins]
        rfl
      cases htext.symm.trans hp
      exact Extractor.not_attempts_text (by simp [countVariable]) call
  have htask : (Task.script script).Ends host s (.ok ()) t :=
    ⟨0, Resolution.ends_ofRun.mpr ht⟩
  have hdeeds : (Operation.task (.script script)).Spares host s countVariable := by
    intro depth deed hd
    have hc : (Task.script script).course host depth s = Course.runScript host false script s := rfl
    rw [hc, Course.runScript_of_ends ht] at hd
    cases List.mem_singleton.mp hd
    exact hspares
  have hspared : t.Spared countVariable :=
    .operation (.new (.inl ⟨_, _, _, hs⟩)) (.task htask) hdeeds
  obtain ⟨hshown, -, hagain, -, hbind, -⟩ := count_is_shown
  have hone := hshown t hspared
  rw [ShowsCount, hcount] at hone
  refine ⟨s, t, u, hs, htask, hspared, ha, hb, hcount, hone, hu, hbind _ _ _ _ hu, ?_,
    (hagain u).1⟩
  rw [ShowsCount, hnull]
  intro h
  cases h

end Session

end ApiScript
