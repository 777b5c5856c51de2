import ApiScript.Proofs.Session.Task

/-! # Sessions that go on alike

A bisimulation relates sessions that cannot be told apart and that stay related whatever is done to
both. A task then ends with the same result in related sessions, or in neither.
-/

namespace ApiScript

structure Session.SameView (s t : Session) : Prop where
  env : s.env = t.env
  plugins : s.plugins = t.plugins
  language : s.language = t.language

/-- A relation of sessions that goes on to hold when a script is run in both, with a host for
each. -/
structure RunBisimulation (host host' : Host) (R : Session → Session → Prop) : Prop where
  view : ∀ {s t}, R s t → s.SameView t
  registry : ∀ {s t}, R s t → s.registry = t.registry
  answer : ∀ {s t}, R s t → ∀ request,
    (host.transport s.sent request).1 = (host'.transport t.sent request).1
  bound : ∀ {s t}, R s t → ∀ {α : Type} (b : Binding α),
    R { s with vars := (b.run.run s.vars).2 } { t with vars := (b.run.run t.vars).2 }
  sending : ∀ {s t}, R s t → ∀ request, R (s.sending host request) (t.sending host' request)
  addCall : ∀ {s t}, R s t → ∀ call, R (s.addCall call) (t.addCall call)
  increment : ∀ {s t}, R s t → R s.increment t.increment

/-- A relation of sessions that goes on to hold when the same is done to both, each with a host of
its own. -/
structure Bisimulation (host host' : Host) (R : Session → Session → Prop) : Prop extends
    RunBisimulation host host' R where
  read : host.read = host'.read
  cancelled : ∀ {s t}, R s t → s.observe.cancelled = t.observe.cancelled
  setScript : ∀ {s t}, R s t → ∀ name script, R (s.setScript name script) (t.setScript name script)
  setTemplate : ∀ {s t}, R s t → ∀ name template,
    R (s.setTemplate name template) (t.setTemplate name template)
  observe : ∀ {s t}, R s t → R s.observe t.observe
  clearCancelled : ∀ {s t}, R s t → R s.clearCancelled t.clearCancelled

variable {R : Session → Session → Prop} {host host' : Host} {s t u v : Session} {α β : Type}

/-! ## Looking at a session -/

namespace Session.SameView

variable {script : Script} {call : CallContext} {name : String}

theorem engine (h : s.SameView t) (language : Option String) :
    s.engine language = t.engine language := by
  rw [Session.engine, Session.engine, h.plugins, h.language]

theorem conditionHolds (h : s.SameView t) :
    Execution.conditionHolds script s = Execution.conditionHolds script t := by
  simp only [Execution.conditionHolds, h.engine, h.env]

theorem assertion (h : s.SameView t) :
    Execution.assertion s name = Execution.assertion t name := by
  simp only [Execution.assertion, h.plugins]

theorem extractor (h : s.SameView t) :
    Execution.extractor s name = Execution.extractor t name := by
  simp only [Execution.extractor, h.plugins]

theorem judge (h : s.SameView t) (plugin : Assertion) (spec : Json) :
    Execution.judge s call name plugin spec = Execution.judge t call name plugin spec := by
  simp only [Execution.judge, h.env]

theorem judgeFields (h : s.SameView t) (fields : Fields Json) :
    Execution.judgeFields s call fields = Execution.judgeFields t call fields := by
  induction fields with
  | nil => rfl
  | cons field rest ih => simp only [Execution.judgeFields, h.judge, h.assertion, ih]

theorem failures (h : s.SameView t) (directive : String) :
    Execution.failures s call directive = Execution.failures t call directive := by
  unfold Execution.failures
  induction call.script.list directive with
  | nil => rfl
  | cons item rest ih =>
    cases item <;> simp only [Execution.judgeItems, h.judge, h.engine, h.judgeFields, ih]

theorem request (h : s.SameView t) (method : Method) (url : String) :
    Execution.request s script method url = Execution.request t script method url := by
  simp only [Execution.request, Execution.headers, Execution.body, h.env, h.plugins]

end Session.SameView

namespace Binding

theorem run_look {next : Environment → Binding α} {v : Variables} :
    (look next).run.run v = (next v.env).run.run v := rfl

theorem run_bindThen {name : String} {value : Json} {next : Except Fault Unit → Binding α}
    {v : Variables} : (bindThen name value next).run.run v =
      match v.bind name value with
      | .error f => (next (.error f)).run.run v
      | .ok w => (next (.ok ())).run.run w := by
  change Binding.run (bindThen name value next) v = _
  rw [Binding.run]
  cases v.bind name value <;> rfl

theorem run_congr (b : Binding α) {v w : Variables} (h : v.env = w.env) :
    (b.run.run v).1 = (b.run.run w).1 ∧ (b.run.run v).2.env = (b.run.run w).2.env := by
  induction b generalizing v w with
  | done result => exact ⟨rfl, h⟩
  | look next ih =>
    rw [run_look, run_look, h]
    exact ih _ h
  | bindThen name value next ih =>
    rw [run_bindThen, run_bindThen, Variables.bind, Variables.bind, h]
    cases w.env.bind name value with
    | error f => exact ih _ h
    | ok env => exact ih _ rfl

end Binding

/-! ## Runs -/

def Run.Agree (R : Session → Session → Prop) (m : Run α) (s : Session) (m' : Run α)
    (t : Session) : Prop :=
  (m.run.run s).1 = (m'.run.run t).1 ∧ R (m.run.run s).2 (m'.run.run t).2

namespace Run

theorem agree_pure {a : α} (h : R s t) : Agree R (pure a) s (pure a) t := ⟨rfl, h⟩

theorem agree_throw {f : Fault} (h : R s t) :
    Agree R (throw f : Run α) s (throw f) t := ⟨rfl, h⟩

theorem agree_lift {e e' : Except Fault α} (he : e = e') (h : R s t) :
    Agree R (lift e) s (lift e') t := by
  subst he
  cases e with
  | ok a => exact agree_pure h
  | error f => exact agree_throw h

theorem Agree.bind {m m' : Run α} {k k' : α → Run β} (h : Agree R m s m' t)
    (hk : ∀ a u v, R u v → Agree R (k a) u (k' a) v) :
    Agree R (m >>= k) s (m' >>= k') t := by
  obtain ⟨hr, hR⟩ := h
  unfold Agree
  rw [run_bind, run_bind]
  generalize m.run.run s = p at hr hR ⊢
  generalize m'.run.run t = q at hr hR ⊢
  obtain ⟨r, u⟩ := p
  obtain ⟨r', v⟩ := q
  obtain rfl : r = r' := hr
  cases r with
  | error f => exact ⟨rfl, hR⟩
  | ok a => exact hk a u v hR

theorem Agree.get {k k' : Session → Run α} (h : Agree R (k s) s (k' t) t) :
    Agree R (MonadState.get >>= k) s (MonadState.get >>= k') t := h

theorem Agree.ends {m m' : Run α} {result : Except Fault α} (h : Agree R m s m' t)
    (hm : m.Ends s result u) : ∃ v, m'.Ends t result v ∧ R u v := by
  unfold Agree at h
  rw [show m.run.run s = (result, u) from hm] at h
  obtain ⟨hr, hR⟩ := h
  exact ⟨(m'.run.run t).2, Prod.ext hr.symm rfl, hR⟩

end Run

namespace RunBisimulation

open Execution Run

variable {call : CallContext} {script : Script}

theorem ofBinding (hb : RunBisimulation host host' R) (h : R s t) (b : Binding α) :
    Agree R (ofBinding b) s (ofBinding b) t := by
  have hr := (b.run_congr (hb.view h).env).1
  have := agree_lift (congrArg settle hr) (hb.bound h b)
  exact this

theorem complete (hb : RunBisimulation host host' R) (h : R s t) :
    Agree R (complete script) s (complete script) t := by
  unfold Execution.complete
  split
  · exact agree_pure h
  · exact Agree.get (agree_lift (by rw [hb.registry h]) h)

theorem bindEnv (hb : RunBisimulation host host' R) (h : R s t) :
    Agree R (bindEnv script) s (bindEnv script) t := by
  unfold Execution.bindEnv
  split
  · exact agree_pure h
  · exact hb.ofBinding h _
  · exact agree_throw h

theorem extractFields (hb : RunBisimulation host host' R) (h : R s t) (fields : Fields Json) :
    Agree R (extractFields call fields) s (extractFields call fields) t := by
  induction fields generalizing s t with
  | nil => exact agree_pure h
  | cons field rest ih =>
    obtain ⟨name, spec⟩ := field
    rw [Execution.extractFields]
    refine Agree.get ((agree_lift (hb.view h).extractor h).bind fun plugin u v h => ?_)
    exact (hb.ofBinding h _).bind fun _ u v h => ih h

theorem extract (hb : RunBisimulation host host' R) (h : R s t) :
    Agree R (extract call) s (extract call) t := by
  unfold Execution.extract
  induction call.script.list "bind" generalizing s t with
  | nil => exact agree_pure h
  | cons item rest ih =>
    cases item with
    | object fields =>
      rw [extractItems]
      exact (hb.extractFields h fields).bind fun _ u v h => ih h
    | _ => exact agree_throw h

theorem exchange (hb : RunBisimulation host host' R) (h : R s t) :
    Agree R (exchange host script) s (exchange host' script) t := by
  unfold Execution.exchange
  refine (agree_lift rfl h).bind fun found u v h => ?_
  split
  · exact agree_pure h
  · refine Agree.get ((agree_lift ((hb.view h).request _ _) h).bind fun built u v h => ?_)
    refine Agree.bind ?_ fun received u v h => agree_pure h
    have hs := hb.sending h built
    exact agree_lift (congrArg settle (hb.answer h built)) hs

theorem conclude (hb : RunBisimulation host host' R) (h : R s t) :
    Agree R (conclude call) s (conclude call) t := by
  unfold Execution.conclude
  refine (hb.extract h).bind fun _ u v h => ?_
  exact Agree.get ((agree_lift ((hb.view h).failures _) h).bind fun unmet u v h => agree_pure h)

theorem run (hb : RunBisimulation host host' R) (h : R s t) (script : Script) :
    Agree R (run host script) s (run host' script) t := by
  unfold Execution.run
  refine (hb.complete h).bind fun script u v h => ?_
  refine (hb.bindEnv h).bind fun _ u v h => ?_
  refine Agree.get ((agree_lift (hb.view h).conditionHolds h).bind fun holds u v h => ?_)
  split
  · refine Agree.get ((agree_lift ((hb.view h).failures _) h).bind fun unmet u v h => ?_)
    split
    · refine (hb.exchange h).bind fun call u v h => ?_
      exact (hb.conclude h).bind fun record u v h => agree_pure h
    · exact agree_pure h
  · exact agree_pure h

theorem runStrictly (hb : RunBisimulation host host' R) (h : R s t) (script : Script) :
    Agree R (runStrictly host script) s (runStrictly host' script) t := by
  unfold Execution.runStrictly
  refine (hb.run h script).bind fun found u v h => ?_
  split
  · exact agree_pure h
  · split
    · exact agree_pure h
    · exact agree_throw h

theorem absorb (hb : RunBisimulation host host' R) (h : R s t) (call : Call) :
    R (s.absorb call) (t.absorb call) := by
  refine hb.addCall ?_ call
  induction max 1 call.failures.length with
  | zero => exact h
  | succ n ih => exact hb.increment ih

theorem runScript (hb : RunBisimulation host host' R) (h : R s t) (script : Script) :
    Agree R (runScript host script) s (runScript host' script) t := by
  obtain ⟨hr, hR⟩ := hb.runStrictly h script
  rw [Agree, run_runScript, run_runScript]
  generalize (Execution.runStrictly host script).run.run s = p at hr hR ⊢
  generalize (Execution.runStrictly host' script).run.run t = q at hr hR ⊢
  obtain ⟨r, u⟩ := p
  obtain ⟨r', v⟩ := q
  obtain rfl : r = r' := hr
  rcases r with f | _ | call
  · cases f with
    | assertionFailed call => exact ⟨rfl, hb.absorb hR call⟩
    | _ => exact ⟨rfl, hR⟩
  · exact ⟨rfl, hR⟩
  · exact ⟨rfl, hb.addCall hR call⟩

end RunBisimulation

/-! ## Resolutions -/

/-- Two resolutions, each in a session of its own, give the same result and related sessions, or
neither ends. -/
def Resolution.Agree (R : Session → Session → Prop) (x : Resolution) (s : Session) (y : Resolution)
    (t : Session) : Prop :=
  Option.Rel (fun p q => p.1 = q.1 ∧ R p.2 q.2) (x.run.run s) (y.run.run t)

namespace Resolution

variable {x y : Resolution} {result : Except Fault Unit}

theorem agree_pure (h : R s t) : Agree R (pure ()) s (pure ()) t := .some ⟨rfl, h⟩

theorem agree_throw {f : Fault} (h : R s t) : Agree R (throw f) s (throw f) t := .some ⟨rfl, h⟩

theorem agree_ofRun {m m' : Run Unit} (h : Run.Agree R m s m' t) :
    Agree R (ofRun m) s (ofRun m') t := .some h

theorem Agree.get {k k' : Session → Resolution} (h : Agree R (k s) s (k' t) t) :
    Agree R (MonadState.get >>= k) s (MonadState.get >>= k') t := h

theorem Agree.bind {k k' : Unit → Resolution} (h : Agree R x s y t)
    (hk : ∀ u v, R u v → Agree R (k ()) u (k' ()) v) : Agree R (x >>= k) s (y >>= k') t := by
  unfold Agree at h ⊢
  rw [run_bind, run_bind]
  generalize x.run.run s = p at h ⊢
  generalize y.run.run t = q at h ⊢
  cases h with
  | none => exact .none
  | @some p q h =>
    obtain ⟨r, u⟩ := p
    obtain ⟨r', v⟩ := q
    obtain ⟨rfl, hR⟩ := h
    cases r with
    | error f => exact .some ⟨rfl, hR⟩
    | ok a => exact hk u v hR

theorem Agree.mono {R' : Session → Session → Prop} (h : Agree R x s y t)
    (hR : ∀ u v, R u v → R' u v) : Agree R' x s y t := by
  unfold Agree at h ⊢
  generalize x.run.run s = p at h ⊢
  generalize y.run.run t = q at h ⊢
  cases h with
  | none => exact .none
  | some h => exact .some ⟨h.1, hR _ _ h.2⟩

theorem Agree.symm (h : Agree R x s y t) : Agree (fun s t => R t s) y t x s := by
  unfold Agree at h ⊢
  generalize x.run.run s = p at h
  generalize y.run.run t = q at h
  cases h with
  | none => exact .none
  | some h => exact .some ⟨h.1.symm, h.2⟩

theorem Agree.ends (h : Agree R x s y t) (hx : x.Ends s result u) :
    ∃ v, y.Ends t result v ∧ R u v := by
  unfold Agree at h
  rw [show x.run.run s = some (result, u) from hx] at h
  cases hy : y.run.run t with
  | none =>
    rw [hy] at h
    cases h
  | some q =>
    rw [hy] at h
    cases h with
    | some h =>
      obtain ⟨r, v⟩ := q
      obtain ⟨rfl, hR⟩ := h
      exact ⟨v, hy, hR⟩

end Resolution

namespace Bisimulation

open Resolution

variable {redirect redirect' : Redirect}

theorem resolveScript (hb : Bisimulation host host' R) (h : R s t) (fields : Fields Json) :
    Agree R (resolveScript host fields) s (resolveScript host' fields) t := by
  unfold Resolution.resolveScript
  split
  · exact agree_throw h
  · rename_i script _
    split
    · exact agree_ofRun (hb.runScript h script)
    · rename_i name _
      split
      · exact .some ⟨rfl, hb.setTemplate h name script⟩
      · exact agree_ofRun (hb.runScript (hb.setScript h name script) script)

theorem resolveText (hb : Bisimulation host host' R)
    (hr : ∀ text {s t}, R s t → Agree R (redirect text) s (redirect' text) t) (h : R s t)
    (text : String) :
    Agree R (resolveText host redirect text) s (resolveText host' redirect' text) t := by
  unfold Resolution.resolveText
  split
  · exact hr _ h
  · refine Agree.get ?_
    rw [hb.registry h]
    split
    · exact agree_ofRun (hb.runScript h _)
    · exact agree_throw h

mutual

theorem resolve (hb : Bisimulation host host' R)
    (hr : ∀ text {s t}, R s t → Agree R (redirect text) s (redirect' text) t) :
    ∀ document {s t}, R s t →
      Agree R (resolve host redirect document) s (resolve host' redirect' document) t
  | .string text, s, t, h => by
    rw [Resolution.resolve, Resolution.resolve]
    exact hb.resolveText hr h text
  | .array items, s, t, h => by
    rw [Resolution.resolve, Resolution.resolve]
    exact resolveAll hb hr items h
  | .object fields, s, t, h => by
    rw [Resolution.resolve, Resolution.resolve]
    exact hb.resolveScript h fields
  | .null, s, t, h | .bool _, s, t, h | .number _, s, t, h => by
    rw [Resolution.resolve, Resolution.resolve]
    · exact agree_throw h
    all_goals simp

theorem resolveAll (hb : Bisimulation host host' R)
    (hr : ∀ text {s t}, R s t → Agree R (redirect text) s (redirect' text) t) :
    ∀ documents {s t}, R s t →
      Agree R (resolveAll host redirect documents) s (resolveAll host' redirect' documents) t
  | [], s, t, h => by
    rw [Resolution.resolveAll, Resolution.resolveAll]
    exact agree_pure h
  | document :: rest, s, t, h => by
    rw [Agree, run_resolveAll_cons, run_resolveAll_cons, hb.cancelled h]
    split
    · exact .some ⟨rfl, hb.observe h⟩
    · exact (resolve hb hr document (hb.observe h)).bind fun u v h => resolveAll hb hr rest h

end

theorem resolveSource (hb : Bisimulation host host' R)
    (hr : ∀ text {s t}, R s t → Agree R (redirect text) s (redirect' text) t) (h : R s t)
    (source : String) :
    Agree R (resolveSource host redirect source) s (resolveSource host' redirect' source) t := by
  unfold Resolution.resolveSource Resolution.read
  rw [hb.read]
  cases host'.read source with
  | error causes => exact agree_throw h
  | ok documents => exact hb.resolveAll hr documents h

theorem follow (hb : Bisimulation host host' R) (depth : Nat) (text : String) (h : R s t) :
    Agree R (follow host depth text) s (follow host' depth text) t := by
  induction depth generalizing text s t with
  | zero => exact .none
  | succ depth ih =>
    have hs := hb.resolveSource (fun text {_ _} h => ih text h) h (s.env.expand text)
    change Agree R (Resolution.resolveSource host _ (s.env.expand text)) s
      (Resolution.resolveSource host' _ (t.env.expand text)) t
    rw [← (hb.view h).env]
    exact hs

theorem resolveSources (hb : Bisimulation host host' R)
    (hr : ∀ text {s t}, R s t → Agree R (redirect text) s (redirect' text) t)
    (sources : List String) (h : R s t) :
    Agree R (resolveSources host redirect sources) s
      (resolveSources host' redirect' sources) t := by
  induction sources generalizing s t with
  | nil => exact agree_pure h
  | cons source rest ih =>
    rw [Agree, run_resolveSources_cons, run_resolveSources_cons, hb.cancelled h]
    split
    · exact .some ⟨rfl, hb.observe h⟩
    · exact (hb.resolveSource hr (hb.observe h) source).bind fun u v h => ih h

/-- A task gives the same result in related sessions, and leads to related ones. -/
theorem task (hb : Bisimulation host host' R) (h : R s t) (depth : Nat) (task : Task) :
    Agree R (task.run host depth) s (task.run host' depth) t := by
  have hr : ∀ text {s t}, R s t →
      Agree R (Resolution.follow host depth text) s (Resolution.follow host' depth text) t :=
    fun text {_ _} h => hb.follow depth text h
  have ho : R (task.opening s) (task.opening t) := by
    unfold Task.opening
    split
    · exact hb.clearCancelled h
    · exact h
  rw [Agree, task.run_eq_body, task.run_eq_body]
  cases task with
  | script script => exact agree_ofRun (hb.runScript ho script)
  | document document => exact hb.resolve hr document ho
  | documents documents | execute documents => exact hb.resolveAll hr documents ho
  | executeSource source => exact hb.resolveSource hr ho source
  | executeSources sources => exact hb.resolveSources hr sources ho

end Bisimulation

end ApiScript
