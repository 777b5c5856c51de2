import ApiScript.Proofs.Script.Request
import ApiScript.Proofs.Session.Judging
import ApiScript.Proofs.Session.Reserved

/-! # What stands before a request

A script sends its request when it has been completed, its variables are bound, its condition holds,
none of its preconditions fails and the request can be made. A run that passes all of this sends one
request, and any other run sends none.
-/

namespace ApiScript.Execution

variable {host other : Host} {script m : Script} {s t u v : Session} {built : Request}
  {found : Except Fault (Option Call)} {name : String}

/-! ## Conditions and variables -/

/-- What decides whether a script is to be run. -/
inductive Decides (m : Script) (u : Session) : Bool → Prop where
  | absent : m.directive? "if" = none → Decides m u true
  | literal {holds : Bool} : m.directive? "if" = some (.bool holds) → Decides m u holds
  | evaluated {text : String} {engine : Engine} {value : Json} :
      m.directive? "if" = some (.string text) → u.engine none = .ok engine →
      engine (u.env.expand text) u.env = .ok value → Decides m u value.isTruthy

theorem conditionHolds_eq_ok_iff {holds : Bool} :
    conditionHolds m u = .ok holds ↔ Decides m u holds := by
  constructor
  · intro h
    have hall := h
    unfold conditionHolds at hall
    split at hall
    · cases hall
      exact .absent ‹_›
    · cases hall
      exact .literal ‹_›
    · rename_i text hd
      cases he : u.engine none with
      | error f =>
        rw [he] at hall
        cases hall
      | ok engine =>
        rw [conditionHolds_of_engine hd he] at h
        cases hv : engine (u.env.expand text) u.env with
        | error trouble =>
          rw [hv] at h
          cases h
        | ok value =>
          rw [hv] at h
          cases h
          exact .evaluated hd he hv
    · cases hall
  · intro h
    cases h with
    | absent hd | literal hd => rw [conditionHolds, hd]
    | evaluated hd he hv =>
      rw [conditionHolds_of_engine hd he, hv]
      rfl

structure BindsOwn (m : Script) (s u : Session) : Prop where
  rebinds : s.Rebinds u
  spares : ∀ name, (∀ fields, m.directive? "env" = some (.object fields) →
    name ∉ Fields.names fields) → u.env.get? name = s.env.get? name

theorem bindsOwn_of_bindEnv {result : Except Fault Unit} (h : (bindEnv m).Ends s result u) :
    BindsOwn m s u := by
  refine ⟨(binds_bindEnv (P := fun _ => True) _ _ h).1, fun name hn => ?_⟩
  unfold bindEnv at h
  split at h
  · obtain ⟨-, rfl⟩ := Run.ends_pure.mp h
    rfl
  · rename_i fields hd
    obtain ⟨-, rfl⟩ := Run.ends_ofBinding.mp h
    exact (Binding.visits_run _ s.vars).get?_eq fun _ => Binding.not_attempts_bindEach (hn _ hd)
  · obtain ⟨-, rfl⟩ := Run.ends_throw.mp h
    rfl

/-! ## Passing the gates -/

/-- A script passes all that stands before its request. -/
structure Passes (script : Script) (s : Session) (m : Script) (u : Session) (built : Request) :
    Prop where
  completed : s.registry.applyTemplates script = .ok m
  bound : (bindEnv m).Ends s (.ok ()) u
  decided : Decides m u true
  met : ∀ c ∈ Check.ofItems (m.list "preconditions"),
    c.verdict u ⟨m, none, none⟩ "preconditions" = .ok .pass
  made : ∃ method url, m.directive? method.text = some (.string url) ∧
    (∀ other, other ≠ method → m.directive? other.text = none) ∧
    request u m method url = .ok built

theorem passes_iff : Passes script s m u built ↔ Proceeds script s m u ∧
    ∃ method url, m.request = .ok (some (method, url)) ∧ request u m method url = .ok built := by
  simp only [Script.request_eq_ok_some_iff, and_assoc]
  constructor
  · rintro ⟨hm, hb, hc, hf, hr⟩
    exact ⟨⟨completes_iff.mpr hm, hb, conditionHolds_eq_ok_iff.mpr hc, failures_eq_nil_iff.mpr hf⟩,
      hr⟩
  · rintro ⟨⟨hm, hb, hc, hf⟩, hr⟩
    exact ⟨completes_iff.mp hm, hb, conditionHolds_eq_ok_iff.mp hc, failures_eq_nil_iff.mp hf, hr⟩

theorem Passes.sent (h : Passes script s m u built) (hr : (run host script).Ends s found t) :
    t.sent = s.sent ++ [built] := by
  obtain ⟨hp, method, url, hm, hb⟩ := passes_iff.mp h
  have hu : (u.sending host built).sent = s.sent ++ [built] := by
    rw [Session.sending_sent, (bindsOwn_of_bindEnv h.bound).rebinds.sent]
  cases ha : (host.transport u.sent built).1 with
  | error trouble =>
    have he := ends_run_iff.mpr (.request hp (ends_exchange_iff.mpr (.unanswered hm hb ha)))
    rw [(hr.unique he).2, hu]
  | ok response =>
    have he := ends_exchange_iff.mpr (.answered hm hb ha)
    obtain ⟨result, w, hk⟩ : ∃ result w,
        (conclude ⟨m, some built, some response⟩).Ends (u.sending host built) result w :=
      ⟨_, _, rfl⟩
    have hw : (u.sending host built).Rebinds w :=
      (binds_conclude (u.sending host built).plugins.confined_true _ _ hk).1
    rw [(hr.unique (hp.ends_of_exchange he hk)).2, hw.sent, hu]

/-- What depends on a host sends some requests, one at most, and only one that passes the gates of
the script. It comes out the same with any host that answers them alike. -/
structure Sends (script : Script) (host : Host) (s t : Session) (p : Host → Prop)
    (requests : List Request) : Prop where
  sent : t.sent = s.sent ++ requests
  once : requests.length ≤ 1
  passes : ∀ r ∈ requests, ∃ m u, Passes script s m u r
  alike : ∀ other : Host,
    (∀ r ∈ requests, other.transport s.sent r = host.transport s.sent r) → p other

namespace Sends

variable {p q : Host → Prop} {requests : List Request}

theorem nothing (hs : t.sent = s.sent) (hp : ∀ other, p other) : Sends script host s t p [] :=
  ⟨hs.trans (List.append_nil _).symm, Nat.zero_le 1, nofun, fun other _ => hp other⟩

theorem map (h : Sends script host s v p requests) (ht : t.sent = v.sent)
    (hq : ∀ other, p other → q other) : Sends script host s t q requests :=
  ⟨ht.trans h.sent, h.once, h.passes, fun other ho => hq other (h.alike other ho)⟩

theorem of_passes (h : Passes script s m u built)
    (hp : ∀ other : Host, other.transport u.sent built = host.transport u.sent built →
      (u.sending other built = u.sending host built → p other)) :
    Sends script host s (u.sending host built) p [built] := by
  have hs : u.sent = s.sent := (bindsOwn_of_bindEnv h.bound).rebinds.sent
  refine ⟨by rw [Session.sending_sent, hs], Nat.le_refl 1,
    List.forall_mem_singleton.mpr ⟨m, u, h⟩, fun other ho => ?_⟩
  have ha := hs ▸ ho built List.mem_cons_self
  exact hp other ha (by rw [Session.sending_eq, Session.sending_eq, ha])

theorem of_exchange {result : Except Fault CallContext} (hp : Proceeds script s m u)
    (h : (exchange host m).Ends u result v) :
    ∃ requests, Sends script host s v (fun host => (exchange host m).Ends u result v) requests := by
  have hs : u.sent = s.sent := (bindsOwn_of_bindEnv hp.bound).rebinds.sent
  simp only [ends_exchange_iff] at h ⊢
  cases h with
  | unclear hm => exact ⟨[], nothing hs fun _ => .unclear hm⟩
  | silent hm => exact ⟨[], nothing hs fun _ => .silent hm⟩
  | unbuilt hm hb => exact ⟨[], nothing hs fun _ => .unbuilt hm hb⟩
  | unanswered hm hb ha =>
    refine ⟨_, of_passes (passes_iff.mpr ⟨hp, _, _, hm, hb⟩) fun other ho hsent => ?_⟩
    exact hsent ▸ .unanswered hm hb (ho ▸ ha)
  | answered hm hb ha =>
    refine ⟨_, of_passes (passes_iff.mpr ⟨hp, _, _, hm, hb⟩) fun other ho hsent => ?_⟩
    exact hsent ▸ .answered hm hb (ho ▸ ha)

theorem of_run (h : (run host script).Ends s found t) :
    ∃ requests, Sends script host s t (fun host => (run host script).Ends s found t) requests := by
  have hown : ∀ {m result u}, (bindEnv m).Ends s result u → u.sent = s.sent :=
    fun hb => (bindsOwn_of_bindEnv hb).rebinds.sent
  have hextract : ∀ {call result v w}, (extract call).Ends v result w → w.sent = v.sent :=
    fun {_ _ v _} hx => (binds_extract v.plugins.confined_true _ _ hx).1.sent
  simp only [ends_run_iff] at h ⊢
  cases h with
  | templates hm => exact ⟨[], nothing rfl fun _ => .templates hm⟩
  | env hm hb => exact ⟨[], nothing (hown hb) fun _ => .env hm hb⟩
  | condition hm hb hc => exact ⟨[], nothing (hown hb) fun _ => .condition hm hb hc⟩
  | skipped hm hb hc => exact ⟨[], nothing (hown hb) fun _ => .skipped hm hb hc⟩
  | preconditions hm hb hc hf =>
    exact ⟨[], nothing (hown hb) fun _ => .preconditions hm hb hc hf⟩
  | refused hm hb hc hf hne => exact ⟨[], nothing (hown hb) fun _ => .refused hm hb hc hf hne⟩
  | request hp he =>
    obtain ⟨requests, hr⟩ := of_exchange hp he
    exact ⟨requests, hr.map rfl fun _ he => .request hp he⟩
  | bind hp he hx =>
    obtain ⟨requests, hr⟩ := of_exchange hp he
    exact ⟨requests, hr.map (hextract hx) fun _ he => .bind hp he hx⟩
  | assert hp he hx hf =>
    obtain ⟨requests, hr⟩ := of_exchange hp he
    exact ⟨requests, hr.map (hextract hx) fun _ he => .assert hp he hx hf⟩
  | judged hp he hx hf =>
    obtain ⟨requests, hr⟩ := of_exchange hp he
    exact ⟨requests, hr.map (hextract hx) fun _ he => .judged hp he hx hf⟩

end Sends

/-! ## Preconditions that are not met -/

/-- A run comes to no extractor, and to none of the assertions on its answer. -/
structure StopsShort (host : Host) (script : Script) (s : Session) : Prop where
  takes : ∀ b x, Comes host script s b x → ∃ fields, b = bindVariables fields ∧ x = s
  judges : ∀ call x, ¬ Judges host script s call "assert" x

theorem stopsShort_of_not_proceeds (h : ∀ m u, ¬ Proceeds script s m u) :
    StopsShort host script s where
  takes b x hc := by
    cases hc with
    | bindVariables => exact ⟨_, rfl, rfl⟩
    | extractor hm hb hc hf => exact (h _ _ ⟨hm, hb, hc, hf⟩).elim
  judges call x hj := by
    obtain ⟨m, u, _, hp, -, -⟩ := hj.exists_proceeds
    exact h m u hp

theorem not_proceeds_of_unmet {unmet : List AssertionFailure}
    (hm : (complete script).Ends s (.ok m) s) (hb : (bindEnv m).Ends s (.ok ()) u)
    (hf : failures u ⟨m, none, none⟩ "preconditions" = .ok unmet) (hne : unmet ≠ []) :
    ∀ m u, ¬ Proceeds script s m u := by
  rintro m' u' ⟨hm', hb', -, hf'⟩
  cases (hm.unique hm').1
  cases (hb.unique hb').2
  cases hf.symm.trans hf'
  exact hne rfl

/-- A script sends one request at most, namely the one that passes all gates. If its condition does
not hold, it only binds its own variables. If preconditions fail, and none comes to a fault, this is
so too, and the fault tells those that fail. -/
theorem request_behind_gates (host : Host) (script : Script) (s : Session) :
    ∃ result t requests, (runStrictly host script).Ends s result t ∧
      Sends script host s t (fun host => (runStrictly host script).Ends s result t) requests ∧
      (∀ m u built, Passes script s m u built → requests = [built]) ∧
      ∀ m u, s.registry.applyTemplates script = .ok m → (bindEnv m).Ends s (.ok ()) u →
        BindsOwn m s u ∧
        (Decides m u false → result = .ok none ∧ t = u ∧ requests = []) ∧
        (Decides m u true →
          (∀ c ∈ Check.ofItems (m.list "preconditions"),
            ∃ verdict, c.verdict u ⟨m, none, none⟩ "preconditions" = .ok verdict) →
          (∃ c ∈ Check.ofItems (m.list "preconditions"),
            ∃ message, c.verdict u ⟨m, none, none⟩ "preconditions" = .ok (.fail message)) →
          result = .error (.assertionFailed ⟨m, none, none,
            (Check.ofItems (m.list "preconditions")).filterMap
              (Check.failure? u ⟨m, none, none⟩ "preconditions"), 0⟩) ∧
          t = u ∧ requests = [] ∧ StopsShort host script s) := by
  obtain ⟨found, t, hr⟩ : ∃ found t, (run host script).Ends s found t := ⟨_, _, rfl⟩
  obtain ⟨requests, hsends⟩ := Sends.of_run hr
  refine ⟨found.bind strictly, t, requests, ends_runStrictly.mpr ⟨found, hr, rfl⟩,
    hsends.map rfl fun other ho => ends_runStrictly.mpr ⟨found, ho, rfl⟩, ?_, ?_⟩
  · intro m u built hp
    exact List.append_cancel_left (hsends.sent.symm.trans (hp.sent hr))
  intro m u hm hb
  have hown := bindsOwn_of_bindEnv hb
  have hnothing : t = u → requests = [] := by
    rintro rfl
    exact List.append_right_eq_self.mp (hsends.sent.symm.trans hown.rebinds.sent)
  refine ⟨hown, fun hc => ?_, fun hc hverdicts hfails => ?_⟩
  · obtain ⟨rfl, ht⟩ := hr.unique <| ends_run_iff.mpr <|
      .skipped (completes_iff.mpr hm) hb (conditionHolds_eq_ok_iff.mpr hc)
    exact ⟨rfl, ht, hnothing ht⟩
  · have hunmet : failures u ⟨m, none, none⟩ "preconditions" =
        .ok ((Check.ofItems (m.list "preconditions")).filterMap
          (Check.failure? u ⟨m, none, none⟩ "preconditions")) :=
      failures_eq_ok_iff.mpr ⟨hverdicts, rfl⟩
    have hne := filterMap_failure?_ne_nil hfails
    obtain ⟨rfl, ht⟩ := hr.unique <| ends_run_iff.mpr <|
      .refused (completes_iff.mpr hm) hb (conditionHolds_eq_ok_iff.mpr hc) hunmet hne
    refine ⟨?_, ht, hnothing ht, ?_⟩
    · change strictly (some _) = _
      rw [strictly, if_neg (by simpa [Call.passed] using hne)]
    · exact stopsShort_of_not_proceeds (not_proceeds_of_unmet (completes_iff.mpr hm) hb hunmet hne)

theorem request_behind_gates_refused :
    let script : Script := ⟨none, [], [("GET", .string "a"), ("assert", .bool true),
      ("env", .object [("x", .null)]),
      ("preconditions",
        .array [.object [("bound", .string "x")], .object [("bound", .string "y")]])]⟩
    let host := Host.always ⟨200, [], ""⟩
    ∃ s t, Session.start Environment.empty Settings.standard Plugins.standard = .ok s ∧
      (runStrictly host script).Ends s (.error (.assertionFailed
        ⟨script, none, none, [⟨"bound", "unbound variable(s): y"⟩], 0⟩)) t ∧
      t.sent = [] ∧ t.env.get? "x" = some .null ∧ StopsShort host script s := by
  intro script host
  obtain ⟨s, u, hs, hm, hb, hsent, hx, hfirst, hsecond⟩ : ∃ s u,
      Session.start Environment.empty Settings.standard Plugins.standard = .ok s ∧
      s.registry.applyTemplates script = .ok script ∧ (bindEnv script).Ends s (.ok ()) u ∧
      u.sent = [] ∧ u.env.get? "x" = some .null ∧
      (Check.named "bound" (.string "x")).verdict u ⟨script, none, none⟩ "preconditions" =
        .ok .pass ∧
      (Check.named "bound" (.string "y")).verdict u ⟨script, none, none⟩ "preconditions" =
        .ok (.fail "unbound variable(s): y") :=
    ⟨_, _, rfl, completes_iff.mp rfl, rfl, rfl, rfl, rfl, rfl⟩
  have hchecks : Check.ofItems (script.list "preconditions") =
      [.named "bound" (.string "x"), .named "bound" (.string "y")] := rfl
  obtain ⟨result, t, requests, hends, -, -, hgates⟩ := request_behind_gates host script s
  obtain ⟨rfl, rfl, -, hshort⟩ := (hgates script u hm hb).2.2 (.absent rfl)
    (by simp [hchecks, hfirst, hsecond]) (by simp [hchecks, hfirst, hsecond])
  refine ⟨s, t, hs, ?_, hsent, hx, hshort⟩
  simpa [hchecks, Check.failure?, hfirst, hsecond, Verdict.failure?, Check.label] using hends

end ApiScript.Execution
