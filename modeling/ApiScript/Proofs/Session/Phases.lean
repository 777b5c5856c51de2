import ApiScript.Proofs.Session.Ends

/-! # The phases of a run

A script that runs takes in its templates, binds its variables, looks at its condition and at its
preconditions, sends its request, takes values from the answer and is judged. Each phase begins only
when those before it have gone well, so a run is told by the phase in which it ends.
-/

namespace ApiScript.Execution

variable {host : Host} {script m : Script} {s t u v : Session} {f : Fault} {call : CallContext}
  {found : Except Fault (Option Call)}

theorem ends_complete {found : Except Fault Script} :
    (complete script).Ends s found t ↔ found = s.registry.applyTemplates script ∧ t = s := by
  unfold complete
  split
  · rename_i h
    have hr : s.registry.applyTemplates script = .ok script := by
      rw [Registry.applyTemplates, List.isEmpty_iff.mp h, List.reverse_nil, Registry.complete]
    rw [hr]
    exact Run.ends_pure
  · rw [Run.ends_get_bind]
    exact Run.ends_lift

theorem completes_iff : (complete script).Ends s (.ok m) s ↔
    s.registry.applyTemplates script = .ok m := by
  rw [ends_complete, and_iff_left rfl, eq_comm]

theorem conditionHolds_of_engine {text : String} {engine : Engine}
    (hd : m.directive? "if" = some (.string text)) (he : s.engine none = .ok engine) :
    conditionHolds m s = (settle (engine (s.env.expand text) s.env)).map Json.isTruthy := by
  unfold conditionHolds
  rw [hd, he]
  change (settle (engine (s.env.expand text) s.env) >>= fun value => _) = _
  cases settle (engine (s.env.expand text) s.env) <;> rfl

/-! ## Sending a request -/

theorem body_of_spec {spec : Json} (hd : script.directive? "body" = some spec)
    (hn : spec ≠ .null) (ht : ∀ text, spec ≠ .string text) :
    body s script = (settle
      ((generatorFor s.plugins spec).1 (generatorFor s.plugins spec).2 s.env)).map some := by
  unfold body
  rw [hd]
  cases spec with
  | null => exact (hn rfl).elim
  | string text => exact (ht text rfl).elim
  | _ => rfl

theorem ends_send {request : Request} {result : Except Fault Response} :
    (send host request).Ends s result t ↔ t = s.sending host request ∧
      ((∃ trouble, (host.transport s.sent request).1 = .error trouble ∧
          result = .error (Fault.ofTrouble trouble)) ∨
        ∃ response, (host.transport s.sent request).1 = .ok response ∧ result = .ok response) := by
  refine (Run.ends_lift : _ ↔ _ ∧ t = s.sending host request).trans ?_
  cases (host.transport s.sent request).1 <;> simp [settle, and_comm]

inductive Exchanges (host : Host) (m : Script) (u : Session) :
    Except Fault CallContext → Session → Prop where
  | unclear {f : Fault} : m.request = .error f → Exchanges host m u (.error f) u
  | silent : m.request = .ok none → Exchanges host m u (.ok ⟨m, none, none⟩) u
  | unbuilt {method : Method} {url : String} {f : Fault} : m.request = .ok (some (method, url)) →
      request u m method url = .error f → Exchanges host m u (.error f) u
  | unanswered {method : Method} {url : String} {built : Request} {trouble : Trouble} :
      m.request = .ok (some (method, url)) → request u m method url = .ok built →
      (host.transport u.sent built).1 = .error trouble →
      Exchanges host m u (.error (Fault.ofTrouble trouble)) (u.sending host built)
  | answered {method : Method} {url : String} {built : Request} {response : Response} :
      m.request = .ok (some (method, url)) → request u m method url = .ok built →
      (host.transport u.sent built).1 = .ok response →
      Exchanges host m u (.ok ⟨m, some built, some response⟩) (u.sending host built)

theorem ends_exchange_iff {result : Except Fault CallContext} :
    (exchange host m).Ends u result v ↔ Exchanges host m u result v := by
  unfold exchange
  constructor
  · intro h
    rcases Run.ends_lift_bind.mp h with ⟨f, hf, rfl, rfl⟩ | ⟨_ | ⟨method, url⟩, hr, hk⟩
    · exact .unclear hf
    · obtain ⟨rfl, rfl⟩ := Run.ends_pure.mp hk
      exact .silent hr
    · rw [Run.ends_get_bind] at hk
      rcases Run.ends_lift_bind.mp hk with ⟨f, hf, rfl, rfl⟩ | ⟨built, hb, hk⟩
      · exact .unbuilt hr hf
      rcases Run.ends_bind.mp hk with ⟨f, hs, rfl⟩ | ⟨response, w, hs, hk⟩
      · obtain ⟨rfl, ⟨trouble, ha, hf⟩ | ⟨_, -, hf⟩⟩ := ends_send.mp hs
        · cases hf
          exact .unanswered hr hb ha
        · cases hf
      · obtain ⟨rfl, rfl⟩ := Run.ends_pure.mp hk
        obtain ⟨rfl, ⟨_, -, hf⟩ | ⟨_, ha, hf⟩⟩ := ends_send.mp hs
        · cases hf
        · cases hf
          exact .answered hr hb ha
  · intro h
    cases h with
    | unclear hr => exact Run.ends_lift_bind.mpr (.inl ⟨_, hr, rfl, rfl⟩)
    | silent hr => exact Run.ends_lift_bind.mpr (.inr ⟨_, hr, Run.ends_pure.mpr ⟨rfl, rfl⟩⟩)
    | unbuilt hr hb =>
      refine Run.ends_lift_bind.mpr (.inr ⟨_, hr, ?_⟩)
      rw [Run.ends_get_bind]
      exact Run.ends_lift_bind.mpr (.inl ⟨_, hb, rfl, rfl⟩)
    | unanswered hr hb ha =>
      refine Run.ends_lift_bind.mpr (.inr ⟨_, hr, ?_⟩)
      rw [Run.ends_get_bind]
      refine Run.ends_lift_bind.mpr (.inr ⟨_, hb, Run.ends_bind.mpr (.inl ⟨_, ?_, rfl⟩)⟩)
      exact ends_send.mpr ⟨rfl, .inl ⟨_, ha, rfl⟩⟩
    | @answered _ _ built response hr hb ha =>
      have hs : (send host built).Ends u (.ok response) (u.sending host built) :=
        ends_send.mpr ⟨rfl, .inr ⟨_, ha, rfl⟩⟩
      refine Run.ends_lift_bind.mpr (.inr ⟨_, hr, ?_⟩)
      rw [Run.ends_get_bind]
      refine Run.ends_lift_bind.mpr (.inr ⟨_, hb, Run.ends_bind.mpr (.inr ⟨_, _, hs, ?_⟩)⟩)
      exact Run.ends_pure.mpr ⟨rfl, rfl⟩

/-! ## Running a script -/

/-- The session when a script goes on to its request, with the script that it has been completed
to. -/
structure Proceeds (script : Script) (s : Session) (m : Script) (u : Session) : Prop where
  completed : (complete script).Ends s (.ok m) s
  bound : (bindEnv m).Ends s (.ok ()) u
  holds : conditionHolds m u = .ok true
  met : failures u ⟨m, none, none⟩ "preconditions" = .ok []

/-- A run comes to judge a call by a directive, in the session that is the last here. -/
inductive Judges (host : Host) (script : Script) (s : Session) :
    CallContext → String → Session → Prop where
  | preconditions {m : Script} {u : Session} : (complete script).Ends s (.ok m) s →
      (bindEnv m).Ends s (.ok ()) u → conditionHolds m u = .ok true →
      Judges host script s ⟨m, none, none⟩ "preconditions" u
  | assert {m : Script} {call : CallContext} {u v w : Session} : Proceeds script s m u →
      (exchange host m).Ends u (.ok call) v → (extract call).Ends v (.ok ()) w →
      Judges host script s call "assert" w

theorem Judges.exists_proceeds {w : Session} (h : Judges host script s call "assert" w) :
    ∃ m u v, Proceeds script s m u ∧ (exchange host m).Ends u (.ok call) v ∧
      (extract call).Ends v (.ok ()) w := by
  generalize hd : "assert" = directive at h
  cases h with
  | preconditions => exact absurd hd (by decide)
  | assert hp he hx => exact ⟨_, _, _, hp, he, hx⟩

/-- What comes of a run, by the phase in which it ends. -/
inductive Runs (host : Host) (script : Script) (s : Session) :
    Except Fault (Option Call) → Session → Prop where
  | templates {f : Fault} : (complete script).Ends s (.error f) s → Runs host script s (.error f) s
  | env {m : Script} {f : Fault} {t : Session} : (complete script).Ends s (.ok m) s →
      (bindEnv m).Ends s (.error f) t → Runs host script s (.error f) t
  | condition {m : Script} {f : Fault} {t : Session} : (complete script).Ends s (.ok m) s →
      (bindEnv m).Ends s (.ok ()) t → conditionHolds m t = .error f →
      Runs host script s (.error f) t
  | skipped {m : Script} {t : Session} : (complete script).Ends s (.ok m) s →
      (bindEnv m).Ends s (.ok ()) t → conditionHolds m t = .ok false →
      Runs host script s (.ok none) t
  | preconditions {m : Script} {f : Fault} {t : Session} : (complete script).Ends s (.ok m) s →
      (bindEnv m).Ends s (.ok ()) t → conditionHolds m t = .ok true →
      failures t ⟨m, none, none⟩ "preconditions" = .error f → Runs host script s (.error f) t
  | refused {m : Script} {unmet : List AssertionFailure} {t : Session} :
      (complete script).Ends s (.ok m) s → (bindEnv m).Ends s (.ok ()) t →
      conditionHolds m t = .ok true → failures t ⟨m, none, none⟩ "preconditions" = .ok unmet →
      unmet ≠ [] → Runs host script s (.ok (some ⟨m, none, none, unmet, 0⟩)) t
  | request {m : Script} {f : Fault} {t u : Session} : Proceeds script s m u →
      (exchange host m).Ends u (.error f) t → Runs host script s (.error f) t
  | bind {m : Script} {call : CallContext} {f : Fault} {t u v : Session} : Proceeds script s m u →
      (exchange host m).Ends u (.ok call) v → (extract call).Ends v (.error f) t →
      Runs host script s (.error f) t
  | assert {m : Script} {call : CallContext} {f : Fault} {t u v : Session} :
      Proceeds script s m u → (exchange host m).Ends u (.ok call) v →
      (extract call).Ends v (.ok ()) t → failures t call "assert" = .error f →
      Runs host script s (.error f) t
  | judged {m : Script} {call : CallContext} {unmet : List AssertionFailure} {t u v : Session} :
      Proceeds script s m u → (exchange host m).Ends u (.ok call) v →
      (extract call).Ends v (.ok ()) t → failures t call "assert" = .ok unmet →
      Runs host script s (.ok (some ⟨call.script, call.request, call.response, unmet, 0⟩)) t

theorem Runs.of_conclude {result : Except Fault Call} (hp : Proceeds script s m u)
    (he : (exchange host m).Ends u (.ok call) v) (h : (conclude call).Ends v result t) :
    Runs host script s (result.map some) t := by
  unfold conclude at h
  rcases Run.ends_bind.mp h with ⟨f, hx, rfl⟩ | ⟨_, w, hx, hk⟩
  · exact .bind hp he hx
  rw [Run.ends_get_bind] at hk
  rcases Run.ends_lift_bind.mp hk with ⟨f, hf, rfl, rfl⟩ | ⟨unmet, hf, hk⟩
  · exact .assert hp he hx hf
  · obtain ⟨rfl, rfl⟩ := Run.ends_pure.mp hk
    exact .judged hp he hx hf

theorem Runs.of_ends (h : (run host script).Ends s found t) : Runs host script s found t := by
  unfold run at h
  rcases Run.ends_bind.mp h with ⟨f, hm, rfl⟩ | ⟨m, _, hm, hrest⟩
  · obtain ⟨-, rfl⟩ := ends_complete.mp hm
    exact .templates hm
  obtain ⟨-, rfl⟩ := ends_complete.mp hm
  rcases Run.ends_bind.mp hrest with ⟨f, hb, rfl⟩ | ⟨_, u, hb, hjudged⟩
  · exact .env hm hb
  rw [Run.ends_get_bind] at hjudged
  rcases Run.ends_lift_bind.mp hjudged with ⟨f, hc, rfl, rfl⟩ | ⟨_ | _, hc, hthen⟩
  · exact .condition hm hb hc
  · obtain ⟨rfl, rfl⟩ := Run.ends_pure.mp hthen
    exact .skipped hm hb hc
  rw [if_pos rfl, Run.ends_get_bind] at hthen
  rcases Run.ends_lift_bind.mp hthen with ⟨f, hf, rfl, rfl⟩ | ⟨_ | ⟨first, rest⟩, hf, hcall⟩
  · exact .preconditions hm hb hc hf
  · have hp : Proceeds script _ m u := ⟨hm, hb, hc, hf⟩
    rcases Run.ends_bind.mp hcall with ⟨f, he, rfl⟩ | ⟨call, v, he, hsome⟩
    · exact .request hp he
    rcases Run.ends_bind.mp hsome with ⟨f, hk, rfl⟩ | ⟨record, w, hk, hpure⟩
    · exact .of_conclude hp he hk
    · obtain ⟨rfl, rfl⟩ := Run.ends_pure.mp hpure
      exact .of_conclude hp he hk
  · obtain ⟨rfl, rfl⟩ := Run.ends_pure.mp hcall
    exact .refused hm hb hc hf (List.cons_ne_nil first rest)

theorem ends_of_bound (hm : (complete script).Ends s (.ok m) s) (hb : (bindEnv m).Ends s (.ok ()) u)
    (h : Run.Ends (do
      if ← Run.lift (conditionHolds m (← get)) then
        let unmet ← Run.lift (failures (← get) ⟨m, none, none⟩ "preconditions")
        if unmet.isEmpty then
          return some (← conclude (← exchange host m))
        else return some ⟨m, none, none, unmet, 0⟩
      else return none) u found t) : (run host script).Ends s found t :=
  Run.ends_bind.mpr (.inr ⟨m, s, hm, Run.ends_bind.mpr (.inr ⟨(), u, hb, h⟩)⟩)

theorem ends_of_holds (hm : (complete script).Ends s (.ok m) s) (hb : (bindEnv m).Ends s (.ok ()) u)
    (hc : conditionHolds m u = .ok true)
    (h : Run.Ends (do
      let unmet ← Run.lift (failures u ⟨m, none, none⟩ "preconditions")
      if unmet.isEmpty then
        return some (← conclude (← exchange host m))
      else return some ⟨m, none, none, unmet, 0⟩) u found t) :
    (run host script).Ends s found t := by
  refine ends_of_bound hm hb (Run.ends_get_bind.mpr (Run.ends_lift_bind.mpr (.inr ⟨true, hc, ?_⟩)))
  rw [if_pos rfl, Run.ends_get_bind]
  exact h

theorem Proceeds.ends (hp : Proceeds script s m u)
    (h : Run.Ends (do return some (← conclude (← exchange host m))) u found t) :
    (run host script).Ends s found t := by
  refine ends_of_holds hp.completed hp.bound hp.holds ?_
  refine Run.ends_lift_bind.mpr (.inr ⟨[], hp.met, ?_⟩)
  rw [List.isEmpty_nil, if_pos rfl]
  exact h

theorem Proceeds.ends_of_exchange {result : Except Fault Call} (hp : Proceeds script s m u)
    (he : (exchange host m).Ends u (.ok call) v) (h : (conclude call).Ends v result t) :
    (run host script).Ends s (result.map some) t := by
  refine hp.ends (Run.ends_bind.mpr (.inr ⟨call, v, he, Run.ends_bind.mpr ?_⟩))
  cases result with
  | error f => exact .inl ⟨f, h, rfl⟩
  | ok record => exact .inr ⟨record, t, h, Run.ends_pure.mpr ⟨rfl, rfl⟩⟩

theorem Runs.ends (h : Runs host script s found t) : (run host script).Ends s found t := by
  cases h with
  | templates hm => exact Run.ends_bind.mpr (.inl ⟨_, hm, rfl⟩)
  | env hm hb => exact Run.ends_bind.mpr (.inr ⟨_, s, hm, Run.ends_bind.mpr (.inl ⟨_, hb, rfl⟩)⟩)
  | condition hm hb hc =>
    refine ends_of_bound hm hb (Run.ends_get_bind.mpr ?_)
    exact Run.ends_lift_bind.mpr (.inl ⟨_, hc, rfl, rfl⟩)
  | skipped hm hb hc =>
    refine ends_of_bound hm hb (Run.ends_get_bind.mpr ?_)
    exact Run.ends_lift_bind.mpr (.inr ⟨false, hc, Run.ends_pure.mpr ⟨rfl, rfl⟩⟩)
  | preconditions hm hb hc hf =>
    exact ends_of_holds hm hb hc (Run.ends_lift_bind.mpr (.inl ⟨_, hf, rfl, rfl⟩))
  | refused hm hb hc hf hne =>
    refine ends_of_holds hm hb hc (Run.ends_lift_bind.mpr (.inr ⟨_, hf, ?_⟩))
    rw [if_neg (by simpa using hne)]
    exact Run.ends_pure.mpr ⟨rfl, rfl⟩
  | request hp he => exact hp.ends (Run.ends_bind.mpr (.inl ⟨_, he, rfl⟩))
  | bind hp he hx => exact hp.ends_of_exchange he (Run.ends_bind.mpr (.inl ⟨_, hx, rfl⟩))
  | @assert m call f t _ v hp he hx hf =>
    have hk : (conclude call).Ends v (.error f) t := by
      refine Run.ends_bind.mpr (.inr ⟨(), t, hx, Run.ends_get_bind.mpr ?_⟩)
      exact Run.ends_lift_bind.mpr (.inl ⟨f, hf, rfl, rfl⟩)
    exact hp.ends_of_exchange he hk
  | @judged m call unmet t _ v hp he hx hf =>
    have hk : (conclude call).Ends v
        (.ok ⟨call.script, call.request, call.response, unmet, 0⟩) t := by
      refine Run.ends_bind.mpr (.inr ⟨(), t, hx, Run.ends_get_bind.mpr ?_⟩)
      exact Run.ends_lift_bind.mpr (.inr ⟨unmet, hf, Run.ends_pure.mpr ⟨rfl, rfl⟩⟩)
    exact hp.ends_of_exchange he hk

theorem ends_run_iff : (run host script).Ends s found t ↔ Runs host script s found t :=
  ⟨.of_ends, Runs.ends⟩

theorem Judges.ends {directive : String} (h : Judges host script s call directive t)
    (hf : failures t call directive = .error f) : (run host script).Ends s (.error f) t := by
  cases h with
  | preconditions hm hb hc => exact ends_run_iff.mpr (.preconditions hm hb hc hf)
  | assert hp he hx => exact ends_run_iff.mpr (.assert hp he hx hf)

def strictly : Option Call → Except Fault (Option Call)
  | none => .ok none
  | some call => if call.passed then .ok (some call) else .error (.assertionFailed call)

theorem runStrictly_eq : runStrictly host script =
    (run host script >>= fun found => Run.lift (strictly found)) := by
  refine bind_congr fun found => ?_
  cases found with
  | none => rfl
  | some call =>
    unfold strictly
    dsimp only
    split <;> rfl

theorem ends_runStrictly : (runStrictly host script).Ends s found t ↔
    ∃ result, (run host script).Ends s result t ∧ found = result.bind strictly := by
  rw [runStrictly_eq, Run.ends_bind]
  constructor
  · rintro (⟨f, hr, rfl⟩ | ⟨result, u, hr, hk⟩)
    · exact ⟨_, hr, rfl⟩
    · obtain ⟨rfl, rfl⟩ := Run.ends_lift.mp hk
      exact ⟨_, hr, rfl⟩
  · rintro ⟨f | result, hr, rfl⟩
    · exact .inl ⟨f, hr, rfl⟩
    · exact .inr ⟨result, t, hr, Run.ends_lift.mpr ⟨rfl, rfl⟩⟩

end ApiScript.Execution
