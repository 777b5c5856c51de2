import ApiScript.Proofs.Inheritance.Reachability
import ApiScript.Proofs.Plugin.Confinement
import ApiScript.Proofs.Session.Changes
import ApiScript.Proofs.Session.Phases

/-! # What one script does

A script that runs binds variables, sends one request at most, and binds more variables when that
is answered; all else of the session stays until the run is recorded. The failed assertions it
carries as a fault are those that its plug-ins and its transport carry.
-/

namespace ApiScript

variable {host : Host} {s t u : Session} {P : Call → Prop} {α β : Type} {script : Script}

/-- A failed assertion that the transport of a host carries is one of some. -/
def Host.Confined (P : Call → Prop) (h : Host) : Prop :=
  ∀ before request, ApiScript.Confined P (settle (h.transport before request).1)

theorem Host.confined_true (h : Host) : h.Confined fun _ => True :=
  fun _ _ => ApiScript.confined_true _

def Host.always (response : Response) : Host where
  transport := fun _ _ => (.ok response, false)
  read := fun _ => .error []

theorem Host.always_confined (response : Response) {P : Call → Prop} :
    (always response).Confined P := fun _ _ => trivial

/-! ## Parts that bind variables -/

/-- A part of a run binds variables and does no more, and carries as its fault no failed assertion
but some. -/
def Run.Binds (P : Call → Prop) (m : Run α) (s : Session) : Prop :=
  ∀ result t, m.Ends s result t → s.Rebinds t ∧ Confined P result

namespace Run

theorem binds_pure (a : α) : Binds P (pure a) s := by
  intro result t h
  obtain ⟨rfl, rfl⟩ := ends_pure.mp h
  exact ⟨.refl _, trivial⟩

theorem binds_lift {e : Except Fault α} (h : Confined P e) : Binds P (lift e) s := by
  intro result t ht
  obtain ⟨rfl, rfl⟩ := ends_lift.mp ht
  exact ⟨.refl _, h⟩

theorem binds_throw {f : Fault} (h : f.isAssertionFailure = false) :
    Binds P (throw f : Run α) s := by
  intro result t ht
  obtain ⟨rfl, rfl⟩ := ends_throw.mp ht
  exact ⟨.refl _, confined_of_not_isAssertionFailure h⟩

theorem binds_ofBinding {b : Binding α} (h : b.Confined P) : Binds P (ofBinding b) s := by
  intro result t ht
  obtain ⟨rfl, rfl⟩ := ends_lift.mp
    (show (lift (settle (b.run.run s.vars).1)).Ends { s with vars := (b.run.run s.vars).2 }
      result t from ht)
  exact ⟨⟨_, b.run_binds s.vars, rfl⟩, h _⟩

theorem Binds.get {k : Session → Run α} (h : Binds P (k s) s) :
    Binds P (MonadState.get >>= k) s := h

theorem Binds.bind {m : Run α} {k : α → Run β} (h : Binds P m s)
    (hk : ∀ a u, s.Rebinds u → Binds P (k a) u) : Binds P (m >>= k) s := by
  intro result t ht
  rcases ends_bind.mp ht with ⟨f, hm, rfl⟩ | ⟨a, u, hm, ht⟩
  · obtain ⟨hu, hf⟩ := h _ _ hm
    exact ⟨hu, hf.fault⟩
  · have hu := (h _ _ hm).1
    obtain ⟨ht, hr⟩ := hk a u hu _ _ ht
    exact ⟨hu.trans ht, hr⟩

theorem binds_lift_bind {e : Except Fault α} {k : α → Run β} (he : Confined P e)
    (hk : ∀ a, e = .ok a → Binds P (k a) s) : Binds P (lift e >>= k) s := by
  cases e with
  | error f =>
    intro result t ht
    rcases ends_lift_bind.mp ht with ⟨g, hg, rfl, rfl⟩ | ⟨a, ha, _⟩
    · cases hg
      exact ⟨.refl _, he.fault⟩
    · cases ha
  | ok a => exact hk a rfl

end Run

/-! ## What a run looks at -/

namespace Execution

variable {call : CallContext}

theorem confined_engine (hp : s.plugins.Confined P) {language : Option String} {engine : Engine}
    (h : s.engine language = .ok engine) (text : String) (env : Environment) :
    Confined P (settle (engine text env)) := by
  unfold Session.engine Plugins.engine at h
  split at h
  · rename_i e he
    cases h
    exact hp.engines he text env
  · cases h

theorem confined_conditionHolds (hp : s.plugins.Confined P) :
    Confined P (conditionHolds script s) := by
  unfold conditionHolds
  split
  · trivial
  · trivial
  · refine Confined.bind ?_ fun engine he => ?_
    · unfold Session.engine Plugins.engine
      split <;> trivial
    · exact (confined_engine hp he _ _).bind fun value _ => trivial
  · trivial

theorem confined_judge {plugin : Assertion} {label : String} {spec : Json}
    (h : Confined P (settle (plugin spec call s.env))) :
    Confined P (judge s call label plugin spec) := by
  unfold judge
  split
  · rename_i f hf
    rw [hf] at h
    exact h.fault
  · trivial
  · trivial

theorem confined_assertion {name : String} : Confined P (assertion s name) := by
  unfold assertion
  split <;> trivial

theorem confined_of_assertion (hp : s.plugins.Confined P) {name : String} {plugin : Assertion}
    (h : assertion s name = .ok plugin) (spec : Json) (env : Environment) :
    Confined P (settle (plugin spec call env)) := by
  unfold assertion at h
  split at h
  · rename_i found ha
    cases h
    exact hp.assertions ha spec call env
  · rename_i engine _ he
    cases h
    exact Assertion.confined_ofEngine (hp.engines he) spec call env
  · cases h

theorem confined_judgeFields (hp : s.plugins.Confined P) (fields : Fields Json) :
    Confined P (judgeFields s call fields) := by
  induction fields with
  | nil => trivial
  | cons field rest ih =>
    refine confined_assertion.bind fun plugin ha => ?_
    refine (confined_judge (confined_of_assertion hp ha _ _)).bind fun found _ => ?_
    exact ih.bind fun _ _ => trivial

theorem confined_failures (hp : s.plugins.Confined P) (directive : String) :
    Confined P (failures s call directive) := by
  unfold failures
  induction call.script.list directive with
  | nil => trivial
  | cons item rest ih =>
    cases item with
    | string text =>
      refine Confined.bind ?_ fun engine he => ?_
      · unfold Session.engine Plugins.engine
        split <;> trivial
      · refine Confined.bind ?_ fun found _ => ih.bind fun _ _ => trivial
        exact confined_judge (Assertion.confined_ofEngine (confined_engine hp he) _ _ _)
    | object fields =>
      exact (confined_judgeFields hp fields).bind fun _ _ => ih.bind fun _ _ => trivial
    | _ => trivial

theorem confined_requestAmong (methods : List Method) (found : Option (Method × String)) :
    Confined P (script.requestAmong found methods) := by
  induction methods generalizing found with
  | nil => trivial
  | cons m rest ih =>
    rw [Script.requestAmong]
    split
    · exact ih _
    · split
      · trivial
      · split
        · exact ih _
        · trivial

theorem confined_generatorFor (hp : s.plugins.Confined P) (spec : Json) (env : Environment) :
    Confined P (settle ((generatorFor s.plugins spec).1 (generatorFor s.plugins spec).2 env)) := by
  unfold generatorFor
  split
  · split
    · rename_i generator hg
      exact hp.generators hg _ _
    · exact Generator.confined_json _ _
  · exact Generator.confined_json _ _

theorem confined_request (hp : s.plugins.Confined P) (method : Method) (url : String) :
    Confined P (request s script method url) := by
  refine Confined.bind ?_ fun headers _ => Confined.bind ?_ fun body _ => trivial
  · unfold Execution.headers
    split <;> trivial
  · unfold Execution.body
    split
    · trivial
    · trivial
    · trivial
    · exact (confined_generatorFor hp _ _).map

/-! ## What a run binds -/

theorem binds_complete : Run.Binds P (complete script) s := by
  unfold complete
  split
  · exact Run.binds_pure _
  · refine Run.Binds.get (Run.binds_lift ?_)
    cases h : s.registry.applyTemplates script with
    | ok m => trivial
    | error f =>
      cases Registry.stuck_of_error h with
      | cycle => trivial
      | missing => trivial

theorem binds_bindEnv : Run.Binds P (bindEnv script) s := by
  unfold bindEnv
  split
  · exact Run.binds_pure _
  · refine Run.binds_ofBinding (Binding.confined_bindEach (fun _ value env => ?_) _)
    exact confined_ok
  · exact Run.binds_throw rfl

theorem confined_extractor {name : String} : Confined P (extractor s name) := by
  unfold extractor
  split <;> trivial

theorem confined_of_extractor (hp : s.plugins.Confined P) {name : String} {plugin : Extractor}
    (h : extractor s name = .ok plugin) (spec : Json) : (plugin spec call).Confined P := by
  unfold extractor at h
  split at h
  · rename_i found he
    cases h
    exact hp.extractors he spec call
  · rename_i engine _ he
    cases h
    exact Extractor.confined_ofEngine (hp.engines he) spec call
  · cases h

theorem binds_extractFields (hp : s.plugins.Confined P) (fields : Fields Json) :
    Run.Binds P (extractFields call fields) s := by
  induction fields generalizing s with
  | nil => exact Run.binds_pure _
  | cons field rest ih =>
    obtain ⟨name, spec⟩ := field
    rw [extractFields]
    refine Run.Binds.get (Run.binds_lift_bind confined_extractor fun plugin he => ?_)
    refine (Run.binds_ofBinding (confined_of_extractor hp he spec)).bind fun _ u hu => ?_
    exact ih (hu.plugins ▸ hp)

theorem binds_extractItems (hp : s.plugins.Confined P) (items : List Json) :
    Run.Binds P (extractItems call items) s := by
  induction items generalizing s with
  | nil => exact Run.binds_pure _
  | cons item rest ih =>
    cases item with
    | object fields =>
      refine (binds_extractFields hp fields).bind fun _ u hu => ?_
      exact ih (hu.plugins ▸ hp)
    | _ => exact Run.binds_throw rfl

theorem binds_extract (hp : s.plugins.Confined P) : Run.Binds P (extract call) s :=
  binds_extractItems hp _

theorem binds_conclude (hp : s.plugins.Confined P) : Run.Binds P (conclude call) s := by
  refine (binds_extract hp).bind fun _ u hu => Run.Binds.get ?_
  exact Run.binds_lift_bind (confined_failures (hu.plugins ▸ hp) _) fun _ _ => Run.binds_pure _

/-! ## How a run ends -/

/-- How a run ends that starts in a session: before anything is sent, when a request is sent and not
answered, or after the answer. -/
inductive Exit (host : Host) (P : Call → Prop) (s : Session) :
    Except Fault (Option Call) → Session → Prop where
  | unsent {found : Except Fault (Option Call)} {t : Session} : s.Rebinds t → Confined P found →
      (∀ call, found = .ok (some call) → call.request = none) → Exit host P s found t
  | unanswered {u : Session} {request : Request} {trouble : Trouble} : s.Rebinds u →
      (host.transport u.sent request).1 = .error trouble →
      Exit host P s (.error (Fault.ofTrouble trouble)) (u.sending host request)
  | answered {found : Except Fault (Option Call)} {t u : Session} {request : Request}
      {response : Response} : s.Rebinds u → (host.transport u.sent request).1 = .ok response →
      (u.sending host request).Rebinds t → Confined P found →
      (∀ result, found = .ok result →
        ∃ call, result = some call ∧ call.request = some request ∧ call.response = some response) →
      Exit host P s found t

theorem ends_exchange (hp : s.plugins.Confined P) {result : Except Fault CallContext}
    (h : (exchange host script).Ends s result t) :
    (t = s ∧ Confined P result ∧ ∀ call, result = .ok call → call.request = none) ∨
      ∃ request, t = s.sending host request ∧
        ((∃ trouble, (host.transport s.sent request).1 = .error trouble ∧
            result = .error (Fault.ofTrouble trouble)) ∨
          ∃ response, (host.transport s.sent request).1 = .ok response ∧
            result = .ok ⟨script, some request, some response⟩) := by
  cases ends_exchange_iff.mp h with
  | unclear hr =>
    have hc : Confined P script.request := confined_requestAmong _ _
    exact .inl ⟨rfl, (hr ▸ hc).fault, by simp⟩
  | silent hr => exact .inl ⟨rfl, trivial, fun call hcall => by cases hcall; rfl⟩
  | @unbuilt method url _ _ hb =>
    have hc : Confined P (request s script method url) := confined_request hp method url
    exact .inl ⟨rfl, (hb ▸ hc).fault, by simp⟩
  | @unanswered _ _ built trouble _ _ ha => exact .inr ⟨built, rfl, .inl ⟨trouble, ha, rfl⟩⟩
  | @answered _ _ built response _ _ ha => exact .inr ⟨built, rfl, .inr ⟨response, ha, rfl⟩⟩

namespace Exit

variable {found : Except Fault (Option Call)}

theorem of_call (hp : u.plugins.Confined P) (hu : s.Rebinds u) {call : CallContext} {v : Session}
    (he : (exchange host script).Ends u (.ok call) v) (hv : v.Rebinds t) (hf : Confined P found)
    (hc : ∀ result, found = .ok result →
      ∃ c, result = some c ∧ c.request = call.request ∧ c.response = call.response) :
    Exit host P s found t := by
  rcases ends_exchange hp he with
    ⟨rfl, -, hn⟩ | ⟨request, rfl, ⟨trouble, -, hcall⟩ | ⟨response, ha, hcall⟩⟩
  · refine .unsent (hu.trans hv) hf fun c hfound => ?_
    obtain ⟨_, hs, hq, -⟩ := hc _ hfound
    cases hs
    exact hq.trans (hn call rfl)
  · cases hcall
  · cases hcall
    exact .answered hu ha hv hf hc

theorem confined (hh : host.Confined P) (h : Exit host P s found t) : Confined P found := by
  cases h with
  | unsent _ hf _ => exact hf
  | @unanswered u request trouble hu ha =>
    have := hh u.sent request
    rw [ha] at this
    exact this.fault
  | answered _ _ _ hf _ => exact hf

theorem ledger (h : Exit host P s found t) : t.ledger = s.ledger := by
  cases h with
  | unsent hu _ _ => exact hu.ledger
  | unanswered hu _ => rw [Session.sending_ledger, hu.ledger]
  | answered hu _ ht _ _ => rw [ht.ledger, Session.sending_ledger, hu.ledger]

theorem plugins (h : Exit host P s found t) : t.plugins = s.plugins := by
  cases h with
  | unsent hu _ _ => exact hu.plugins
  | unanswered hu _ => rw [Session.sending_plugins, hu.plugins]
  | answered hu _ ht _ _ => rw [ht.plugins, Session.sending_plugins, hu.plugins]

theorem isBound (h : Exit host P s found t) {name : String} (hb : s.env.isBound name) :
    t.env.isBound name := by
  cases h with
  | unsent hu _ _ => exact hu.isBound hb
  | unanswered hu _ => simpa using hu.isBound hb
  | answered hu _ ht _ _ => exact ht.isBound (by simpa using hu.isBound hb)

end Exit

/-- Every run ends in one of these ways. -/
theorem exit_of_run (hp : s.plugins.Confined P) {found : Except Fault (Option Call)}
    (h : (run host script).Ends s found t) : Exit host P s found t := by
  have hbound : ∀ {m u}, (bindEnv m).Ends s (.ok ()) u → s.Rebinds u ∧ u.plugins.Confined P :=
    fun hb => have hu := (binds_bindEnv (P := P) _ _ hb).1
      ⟨hu, hu.plugins ▸ hp⟩
  have hsent : ∀ {m u call v}, (exchange host m).Ends u (.ok call) v → u.plugins.Confined P →
      v.plugins.Confined P := by
    intro m u call v he hu
    rcases ends_exchange hu he with ⟨rfl, -⟩ | ⟨request, rfl, -⟩
    · exact hu
    · rwa [Session.sending_plugins]
  cases ends_run_iff.mp h with
  | templates hm => exact .unsent (.refl s) (binds_complete _ _ hm).2.fault (by simp)
  | env _ hb =>
    obtain ⟨hu, hf⟩ := binds_bindEnv _ _ hb
    exact .unsent hu hf.fault (by simp)
  | condition _ hb hc =>
    obtain ⟨hu, hpu⟩ := hbound hb
    exact .unsent hu (hc ▸ confined_conditionHolds hpu).fault (by simp)
  | skipped _ hb => exact .unsent (hbound hb).1 trivial (by simp)
  | preconditions _ hb _ hf =>
    obtain ⟨hu, hpu⟩ := hbound hb
    exact .unsent hu (hf ▸ confined_failures hpu _).fault (by simp)
  | refused _ hb => exact .unsent (hbound hb).1 trivial fun call hcall => by cases hcall; rfl
  | request hgo he =>
    obtain ⟨hu, hpu⟩ := hbound hgo.bound
    rcases ends_exchange hpu he with
      ⟨rfl, hf, -⟩ | ⟨request, rfl, ⟨trouble, ha, hf⟩ | ⟨response, -, hf⟩⟩
    · exact .unsent hu hf.fault (by simp)
    · cases hf
      exact .unanswered hu ha
    · cases hf
  | bind hgo he hx =>
    obtain ⟨hu, hpu⟩ := hbound hgo.bound
    obtain ⟨hv, hf⟩ := binds_extract (hsent he hpu) _ _ hx
    exact .of_call hpu hu he hv hf.fault (by simp)
  | assert hgo he hx hf =>
    obtain ⟨hu, hpu⟩ := hbound hgo.bound
    have hv := (binds_extract (hsent he hpu) _ _ hx).1
    have hpt : t.plugins.Confined P := hv.plugins ▸ hsent he hpu
    exact .of_call hpu hu he hv (hf ▸ confined_failures hpt _).fault (by simp)
  | judged hgo he hx =>
    obtain ⟨hu, hpu⟩ := hbound hgo.bound
    have hv := (binds_extract (hsent he hpu) _ _ hx).1
    exact .of_call hpu hu he hv trivial fun result hr => by cases hr; exact ⟨_, rfl, rfl, rfl⟩

section Frame

variable {found : Except Fault (Option Call)}

theorem run_ledger (h : (run host script).Ends s found t) : t.ledger = s.ledger :=
  (exit_of_run s.plugins.confined_true h).ledger

theorem run_plugins (h : (run host script).Ends s found t) : t.plugins = s.plugins :=
  (exit_of_run s.plugins.confined_true h).plugins

theorem run_isBound (h : (run host script).Ends s found t) {name : String}
    (hb : s.env.isBound name) : t.env.isBound name :=
  (exit_of_run s.plugins.confined_true h).isBound hb

end Frame

end Execution

/-! ## Recording -/

/-- What comes of a run when it is recorded: the result, and the session after it. -/
inductive Session.Records (s : Session) :
    Except Fault (Option Call) → Except Fault Unit → Session → Prop where
  | nothing : Records s (.ok none) (.ok ()) s
  | passed {call : Call} : call.failures = [] →
      Records s (.ok (some call)) (.ok ()) (s.addCall call)
  | failed {call : Call} : call.failures ≠ [] →
      Records s (.ok (some call)) (.ok ()) (s.absorb call)
  | carried {call : Call} : Records s (.error (.assertionFailed call)) (.ok ()) (s.absorb call)
  | fault {f : Fault} : f.isAssertionFailure = false → Records s (.error f) (.error f) s

theorem Session.Records.plugins {found : Except Fault (Option Call)} {result : Except Fault Unit}
    (h : s.Records found result t) : t.plugins = s.plugins := by
  cases h with
  | nothing => rfl
  | passed => rfl
  | @failed call _ | @carried call =>
    obtain ⟨v, ht, -⟩ := s.absorb_eq call
    rw [ht]
  | fault => rfl

theorem ends_runScript {result : Except Fault Unit} :
    (runScript host script).Ends s result t ↔
      ∃ found u, (Execution.run host script).Ends s found u ∧ u.Records found result t := by
  unfold Run.Ends
  rw [Run.run_runScript, Execution.runStrictly, Run.run_bind]
  generalize (Execution.run host script).run.run s = p
  obtain ⟨found, u⟩ := p
  constructor
  · intro h
    refine ⟨found, u, rfl, ?_⟩
    rcases found with f | _ | call
    · cases f with
      | assertionFailed call =>
        cases h
        exact .carried
      | _ =>
        cases h
        exact .fault rfl
    · cases h
      exact .nothing
    · dsimp only at h
      cases hc : call.failures with
      | nil =>
        rw [if_pos (by simp [Call.passed, hc])] at h
        cases h
        exact .passed hc
      | cons first rest =>
        rw [if_neg (by simp [Call.passed, hc])] at h
        cases h
        exact .failed (by simp [hc])
  · rintro ⟨_, _, h, hr⟩
    cases h
    cases hr with
    | nothing => rfl
    | passed hc =>
      dsimp only
      rw [if_pos (by simp [Call.passed, hc])]
      rfl
    | failed hc =>
      dsimp only
      rw [if_neg (by simp [Call.passed, hc])]
      rfl
    | carried => rfl
    | @fault f hf =>
      cases f with
      | assertionFailed call => cases hf
      | _ => rfl

theorem runScript_plugins {result : Except Fault Unit}
    (h : (runScript host script).Ends s result t) : t.plugins = s.plugins := by
  obtain ⟨found, u, hr, hu⟩ := ends_runScript.mp h
  rw [hu.plugins, Execution.run_plugins hr]

end ApiScript
