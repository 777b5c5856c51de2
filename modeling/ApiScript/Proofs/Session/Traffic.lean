import ApiScript.Proofs.Session.Depth

/-! # The history and the traffic

The records that a task appends show which requests were answered, and how, in the order in which
they were sent. Only the last one can be missing: its script failed after the answer.
-/

namespace ApiScript

variable {host : Host} {s t u : Session} {result : Except Fault Unit} {calls more : List Call}

/-- The requests that a host answers, with the answers, among requests sent after some others. -/
def Host.answered (host : Host) : List Request → List Request → List (Request × Response)
  | _, [] => []
  | before, request :: rest =>
    match (host.transport before request).1 with
    | .ok response => (request, response) :: answered host (before ++ [request]) rest
    | .error _ => answered host (before ++ [request]) rest

def exchanges (calls : List Call) : List (Request × Option Response) :=
  calls.filterMap fun c => c.request.map fun request => (request, c.response)

def Host.Shows (host : Host) (before requests : List Request) (calls : List Call) : Prop :=
  exchanges calls = (host.answered before requests).map fun e => (e.1, some e.2)

/-- Records show the requests that were answered, except the last one. -/
def Host.ShowsButLast (host : Host) (before requests : List Request) (calls : List Call) : Prop :=
  ∃ last : Request × Response, exchanges calls ++ [(last.1, some last.2)] =
    (host.answered before requests).map fun e => (e.1, some e.2)

@[simp] theorem exchanges_append : exchanges (calls ++ more) = exchanges calls ++ exchanges more :=
  List.filterMap_append

theorem Host.answered_append (before a b : List Request) :
    host.answered before (a ++ b) = host.answered before a ++ host.answered (before ++ a) b := by
  induction a generalizing before with
  | nil => simp [answered]
  | cons request rest ih =>
    rw [List.cons_append, answered, answered]
    split
    · rw [ih, List.cons_append, List.append_assoc, List.singleton_append]
    · rw [ih, List.append_assoc, List.singleton_append]

namespace Host.Shows

variable {before a b : List Request}

theorem append (h : host.Shows before a calls) (h' : host.Shows (before ++ a) b more) :
    host.Shows before (a ++ b) (calls ++ more) := by
  unfold Shows at h h' ⊢
  rw [exchanges_append, answered_append, List.map_append, h, h']

theorem append_butLast (h : host.Shows before a calls)
    (h' : host.ShowsButLast (before ++ a) b more) :
    host.ShowsButLast before (a ++ b) (calls ++ more) := by
  obtain ⟨last, h'⟩ := h'
  refine ⟨last, ?_⟩
  unfold Shows at h
  rw [exchanges_append, answered_append, List.map_append, List.append_assoc, h, h']

end Host.Shows

def Traffic (host : Host) (s : Session) (result : Except Fault Unit) (t : Session) : Prop :=
  ∃ calls requests, t.ledger.calls = s.ledger.calls ++ calls ∧ t.sent = s.sent ++ requests ∧
    match result with
    | .ok () => host.Shows s.sent requests calls
    | .error f => f.isAssertionFailure = false ∧
        (host.Shows s.sent requests calls ∨ host.ShowsButLast s.sent requests calls)

namespace Traffic

theorem unchanged (hl : t.ledger = s.ledger) (hs : t.sent = s.sent) :
    Traffic host s (.ok ()) t :=
  ⟨[], [], by simp [hl], by simp [hs], rfl⟩

theorem trans (h : Traffic host s (.ok ()) u) (h' : Traffic host u result t) :
    Traffic host s result t := by
  obtain ⟨calls, requests, hc, hs, h⟩ := h
  obtain ⟨more, others, hc', hs', h'⟩ := h'
  rw [hs] at h'
  refine ⟨calls ++ more, requests ++ others, by simp [hc, hc'], by simp [hs, hs'], ?_⟩
  cases result with
  | ok _ => exact h.append h'
  | error f => exact ⟨h'.1, h'.2.imp h.append h.append_butLast⟩

theorem of_exit {P : Call → Prop} {found : Except Fault (Option Call)}
    (h : Execution.Exit host P s found u) : ∃ requests, u.sent = s.sent ++ requests ∧
      match found with
      | .ok none => host.Shows s.sent requests []
      | .ok (some call) => host.Shows s.sent requests [call]
      | .error _ => host.Shows s.sent requests [] ∨ host.ShowsButLast s.sent requests [] := by
  cases h with
  | unsent hu _ hn =>
    refine ⟨[], by simp [hu.sent], ?_⟩
    rcases found with f | _ | call
    · exact .inl rfl
    · rfl
    · simp [Host.Shows, exchanges, Host.answered, hn call rfl]
  | unanswered hu ha =>
    refine ⟨_, by rw [Session.sending_sent, hu.sent], .inl ?_⟩
    rw [hu.sent] at ha
    simp [Host.Shows, exchanges, Host.answered, ha]
  | @answered _ _ v request response hu ha ht _ hc =>
    refine ⟨[request], by rw [ht.sent, Session.sending_sent, hu.sent], ?_⟩
    rw [hu.sent] at ha
    rcases found with f | found
    · exact .inr ⟨(request, response), by simp [exchanges, Host.answered, ha]⟩
    · obtain ⟨call, rfl, hq, hr⟩ := hc found rfl
      simp [Host.Shows, exchanges, Host.answered, ha, hq, hr]

theorem of_records {P : Call → Prop} {found : Except Fault (Option Call)}
    (hx : Execution.Exit host P s found u) (hf : Confined (fun _ => False) found)
    (h : u.Records found result t) : Traffic host s result t := by
  obtain ⟨requests, hs, hq⟩ := of_exit hx
  cases h with
  | nothing => exact ⟨[], requests, by simp [hx.ledger], hs, hq⟩
  | @passed call hc =>
    exact ⟨[call], requests, by rw [← hx.ledger]; rfl, hs, hq⟩
  | @failed call hc =>
    obtain ⟨v, ht, -⟩ := u.absorb_eq call
    exact ⟨[call], requests, by rw [ht, ← hx.ledger], by rw [ht, hs], hq⟩
  | carried => exact hf.elim
  | fault hk => exact ⟨[], requests, by simp [hx.ledger], hs, hk, hq⟩

/-- Unless plug-ins or the transport carry failed assertions, the traffic is recorded. -/
theorem holds (hh : host.Confined fun _ => False) :
    (Law.Under (fun _ => False) (Traffic host)).Holds host := by
  refine .under (fun h => unchanged h.ledger h.sent) (fun h h' => h.trans h') ?_ ?_
  · exact fun s f hf => ⟨[], [], by simp, by simp, hf, .inl rfl⟩
  · intro script s result t hp h
    obtain ⟨found, u, hr, hu⟩ := ends_runScript.mp h
    have hx := Execution.exit_of_run hp hr
    exact of_records hx (hx.confined hh) hu

end Traffic

/-- Records that were there stay as they are. The records that a task appends show the requests
that were answered in the meantime, with the answers and in order: all of them when the task ends
well, and all but the last at least when it does not. -/
theorem Task.history_shows_traffic {task : Task} (hh : host.Confined fun _ => False)
    (hp : s.plugins.Confined fun _ => False) (h : task.Ends host s result t) :
    ∃ calls requests, t.ledger.calls = s.ledger.calls ++ calls ∧ t.sent = s.sent ++ requests ∧
      (result = .ok () → host.Shows s.sent requests calls) ∧
      ∀ f, result = .error f → f.isAssertionFailure = false ∧
        (host.Shows s.sent requests calls ∨ host.ShowsButLast s.sent requests calls) := by
  obtain ⟨calls, requests, hc, hs, hr⟩ := ((Traffic.holds hh).ends h).2 hp
  refine ⟨calls, requests, hc, hs, ?_, ?_⟩
  · rintro rfl
    exact hr
  · rintro f rfl
    exact hr

def Session.blank (plugins : Plugins) : Session where
  vars := ⟨Environment.empty, Notifier.empty⟩
  registry := Registry.empty
  ledger := Ledger.empty
  cancelled := false
  raised := false
  plugins := plugins
  language := "cel"
  sent := []

theorem Task.history_shows_traffic_failing :
    let task := Task.documents [.object [("GET", .string "a")],
      .object [("GET", .string "b"), ("bind", .object [("c", .null)])]]
    let host := Host.always ⟨200, [], ""⟩
    ∃ t, task.Ends host (.blank Plugins.standard) (.error (.unknownPlugin .extractor "c")) t ∧
      t.ledger.calls.length = 1 ∧ t.sent.length = 2 ∧
      ∃ calls requests, t.ledger.calls = [] ++ calls ∧ t.sent = [] ++ requests ∧
        (host.Shows [] requests calls ∨ host.ShowsButLast [] requests calls) := by
  intro task host
  obtain ⟨t, h, hc, hs⟩ : ∃ t, task.Ends host (.blank Plugins.standard)
      (.error (.unknownPlugin .extractor "c")) t ∧ t.ledger.calls.length = 1 ∧ t.sent.length = 2 :=
    ⟨_, ⟨1, rfl⟩, rfl, rfl⟩
  obtain ⟨calls, requests, hcalls, hsent, -, hf⟩ :=
    history_shows_traffic (Host.always_confined _) (Plugins.standard_confined _) h
  exact ⟨t, h, hc, hs, calls, requests, hcalls, hsent, (hf _ rfl).2⟩

/-- An extractor may fail with an assertion on another call, which is recorded instead of the
answer. So plug-ins have to be confined, and not only the transport. -/
theorem Task.answer_lost_to_extractor :
    ¬ ∀ (host : Host) (s t : Session) (task : Task) (result : Except Fault Unit),
      (∃ env settings plugins, Session.start env settings plugins = .ok s) →
      host.Confined (fun _ => False) → task.Ends host s result t →
      ∃ calls requests, t.ledger.calls = s.ledger.calls ++ calls ∧ t.sent = s.sent ++ requests ∧
        (result = .ok () → host.Shows s.sent requests calls) ∧
        ∀ f, result = .error f → f.isAssertionFailure = false ∧
          (host.Shows s.sent requests calls ∨ host.ShowsButLast s.sent requests calls) := by
  intro h
  let call : Call := ⟨⟨none, [], []⟩, none, none, [], 0⟩
  let host := Host.always ⟨200, [], ""⟩
  let task := Task.documents [.object [("GET", .string "a"), ("bind", .object [("fail", .null)])]]
  obtain ⟨s, t, request, hs, ht, hbefore, hsent, hafter, hnow⟩ : ∃ s t request,
      Session.start Environment.empty Settings.standard (Plugins.failingWith call) = .ok s ∧
      task.Ends host s (.ok ()) t ∧ s.ledger.calls = [] ∧ s.sent = [] ∧
      t.ledger.calls = [call] ∧ t.sent = [request] :=
    ⟨_, _, _, rfl, ⟨1, rfl⟩, rfl, rfl, rfl, rfl⟩
  obtain ⟨calls, requests, hc, hr, hshows, -⟩ :=
    h host s t task (.ok ()) ⟨_, _, _, hs⟩ (Host.always_confined _) ht
  rw [hbefore, hafter, List.nil_append] at hc
  rw [hsent, hnow, List.nil_append] at hr
  have hfalse := hshows rfl
  rw [← hc, ← hr, hsent] at hfalse
  cases hfalse

end ApiScript
