import ApiScript.Plugin.Standard
import ApiScript.Proofs.Table

/-! # Failed assertions that plug-ins carry

Plug-ins may fail with a fault of any kind, a failed assertion of another call included. What is
said here is which failed assertions these can be; those that are always there carry none.
-/

namespace ApiScript

variable {α β : Type} {P : Call → Prop}

/-- A failed assertion that a result carries as its fault is one of some. -/
def Confined (P : Call → Prop) : Except Fault α → Prop
  | .error (.assertionFailed call) => P call
  | _ => True

/-! ## Results -/

@[simp] theorem confined_ok {a : α} : Confined P (.ok a) := trivial

theorem confined_of_not_isAssertionFailure {f : Fault} (h : f.isAssertionFailure = false) :
    Confined P (.error f : Except Fault α) := by
  cases f with
  | assertionFailed call => cases h
  | _ => trivial

theorem confined_true (e : Except Fault α) : Confined (fun _ => True) e := by
  rcases e with f | a
  · cases f <;> trivial
  · trivial

theorem Confined.fault {f : Fault} (h : Confined P (.error f : Except Fault α)) :
    Confined P (.error f : Except Fault β) := by
  cases f <;> exact h

theorem Confined.bind {e : Except Fault α} {k : α → Except Fault β} (h : Confined P e)
    (hk : ∀ a, e = .ok a → Confined P (k a)) : Confined P (e >>= k) := by
  cases e with
  | error f => exact h.fault
  | ok a => exact hk a rfl

theorem Confined.map {e : Except Fault α} {g : α → β} (h : Confined P e) :
    Confined P (e.map g) := by
  cases e with
  | error f => exact h.fault
  | ok a => trivial

@[simp] theorem settle_ok {a : α} : settle (.ok a) = .ok a := rfl

@[simp] theorem settle_pure {a : α} : settle (pure a) = .ok a := rfl

theorem settle_bind {e : Except Trouble α} {k : α → Except Trouble β} :
    settle (e >>= k) = settle e >>= fun a => settle (k a) := by
  cases e <;> rfl

@[simp] theorem confined_ofText {message : String} :
    Confined P (settle (.error (Trouble.ofText message) : Except Trouble α)) := trivial

theorem Confined.explain {t : Trouble} {explanation : String}
    (h : Confined P (settle (.error t : Except Trouble α))) :
    Confined P (settle (.error (t.explain explanation) : Except Trouble β)) := by
  obtain ⟨explanations, cause⟩ := t
  cases cause with
  | fault f => exact Confined.fault h
  | other message => trivial

/-! ## Bindings -/

namespace Binding

theorem run_andThen (b : Binding α) (next : Except Trouble α → Binding β) (v : Variables) :
    (b.andThen next).run.run v = (next (b.run.run v).1).run.run (b.run.run v).2 := by
  induction b generalizing v with
  | done result => rfl
  | look seen ih => exact ih _ _
  | bindThen name value bound ih =>
    change Binding.run _ v = (next (Binding.run _ v).1).run.run (Binding.run _ v).2
    rw [andThen, Binding.run, Binding.run]
    cases v.bind name value with
    | error f => exact ih _ _
    | ok w => exact ih _ _

def Confined (P : Call → Prop) (b : Binding α) : Prop :=
  ∀ v, ApiScript.Confined P (settle (b.run.run v).1)

theorem confined_lift {result : Except Trouble α} (h : ApiScript.Confined P (settle result)) :
    (lift result).Confined P := fun _ => h

theorem confined_throw {message : String} :
    (throw (Trouble.ofText message) : Binding α).Confined P := fun _ => trivial

theorem Confined.bind {b : Binding α} {k : α → Binding β} (h : b.Confined P)
    (hk : ∀ a, (k a).Confined P) : (b >>= k).Confined P := by
  intro v
  have hb := h v
  change ApiScript.Confined P (settle ((b.andThen _).run.run v).1)
  rw [run_andThen]
  cases hr : (b.run.run v).1 with
  | error t =>
    rw [hr] at hb
    exact ApiScript.Confined.fault hb
  | ok a => exact hk a _

theorem confined_bind (name : String) (value : Json) : (bind name value).Confined P := by
  intro v
  change ApiScript.Confined P (settle (Binding.run (.bindThen name value _) v).1)
  rw [Binding.run, Variables.bind, Environment.bind]
  by_cases h : Environment.isReserved name
  · rw [if_pos h]
    trivial
  · rw [if_neg h]
    trivial

theorem confined_bindEach {find : String → Json → Environment → Except Trouble Json}
    (h : ∀ name spec env, ApiScript.Confined P (settle (find name spec env)))
    (fields : Fields Json) : (bindEach find fields).Confined P := by
  induction fields with
  | nil => exact fun _ => trivial
  | cons field rest ih =>
    refine Confined.bind (fun _ => trivial) fun env => ?_
    refine Confined.bind (confined_lift (h _ _ env)) fun value => ?_
    exact Confined.bind (confined_bind _ value) fun _ => ih

end Binding

/-! ## Plug-ins -/

/-- A failed assertion with which a plug-in itself fails is one of some. -/
structure Plugins.Confined (P : Call → Prop) (p : Plugins) : Prop where
  assertions : ∀ {name plugin}, p.assertions.get? name = some plugin →
    ∀ spec call env, ApiScript.Confined P (settle (plugin spec call env))
  extractors : ∀ {name plugin}, p.extractors.get? name = some plugin →
    ∀ spec call, (plugin spec call).Confined P
  generators : ∀ {name plugin}, p.generators.get? name = some plugin →
    ∀ spec env, ApiScript.Confined P (settle (plugin spec env))
  engines : ∀ {name engine}, p.engines.get? name = some engine →
    ∀ text env, ApiScript.Confined P (settle (engine text env))

theorem confined_requireResponse (c : CallContext) (who : String) :
    Confined P (settle (c.requireResponse who)) := by
  unfold CallContext.requireResponse
  split <;> simp

theorem confined_textsOf (what : String) (spec : Json) :
    Confined P (settle (textsOf what spec)) := by
  unfold textsOf
  split
  · simp
  · split <;> simp
  · simp

theorem confined_fieldsOf (what : String) (spec : Json) :
    Confined P (settle (fieldsOf what spec)) := by
  unfold fieldsOf
  split <;> simp

namespace Assertion

theorem confined_anyMatches (n : Nat) (items : List Json) :
    Confined P (settle (anyMatches n items)) := by
  induction items with
  | nil => simp [anyMatches]
  | cons expected rest ih =>
    rw [anyMatches]
    split
    · rename_i t h
      unfold statusMatches at h
      grind [confined_ofText]
    · simp
    · exact ih

theorem confined_status (spec : Json) (call : CallContext) (env : Environment) :
    Confined P (settle (status spec call env)) := by
  unfold status
  rw [settle_bind]
  refine (confined_requireResponse _ _).bind fun response _ => ?_
  rw [settle_bind]
  refine (confined_anyMatches _ _).bind fun found _ => ?_
  split <;> simp

theorem confined_headers (spec : Json) (call : CallContext) (env : Environment) :
    Confined P (settle (headers spec call env)) := by
  unfold headers
  rw [settle_bind]
  refine (confined_requireResponse _ _).bind fun response _ => ?_
  rw [settle_bind]
  exact (confined_fieldsOf _ _).bind fun expected _ => by simp

theorem confined_json (spec : Json) (call : CallContext) (env : Environment) :
    Confined P (settle (json spec call env)) := by
  unfold json
  rw [settle_bind]
  refine (confined_requireResponse _ _).bind fun response _ => ?_
  split
  · simp
  · split <;> simp

theorem confined_contains (spec : Json) (call : CallContext) (env : Environment) :
    Confined P (settle (contains spec call env)) := by
  unfold contains
  rw [settle_bind]
  refine (confined_requireResponse _ _).bind fun response _ => ?_
  rw [settle_bind]
  exact (confined_textsOf _ _).bind fun texts _ => by simp

theorem confined_bound (spec : Json) (call : CallContext) (env : Environment) :
    Confined P (settle (bound spec call env)) := by
  unfold bound
  rw [settle_bind]
  refine (confined_textsOf _ _).bind fun texts _ => ?_
  dsimp only
  split <;> simp

theorem confined_expressions {engine : Engine} {env : Environment}
    (h : ∀ text, Confined P (settle (engine text env))) (texts : List String) :
    Confined P (settle (expressions engine env texts)) := by
  induction texts with
  | nil => simp [expressions]
  | cons text rest ih =>
    have he := h (env.expand text)
    rw [expressions]
    split
    · rename_i t ht
      rw [ht] at he
      exact he.explain
    · split
      · exact ih
      · simp

theorem confined_ofEngine {engine : Engine}
    (h : ∀ text env, Confined P (settle (engine text env))) (spec : Json) (call : CallContext)
    (env : Environment) : Confined P (settle (ofEngine engine spec call env)) := by
  unfold ofEngine
  rw [settle_bind]
  exact (confined_textsOf _ _).bind fun texts _ => confined_expressions (h · env) texts

end Assertion

namespace Extractor

theorem confined_json (spec : Json) (call : CallContext) : (json spec call).Confined P := by
  unfold json
  refine (Binding.confined_lift (confined_requireResponse _ _)).bind fun response => ?_
  split
  · exact Binding.confined_throw
  · split
    · exact Binding.Confined.bind (fun _ => trivial) fun env => Binding.confined_bind _ _
    · refine Binding.confined_bindEach (fun name spec env => ?_) _
      unfold valueAt
      split
      · dsimp only
        split <;> simp
      · simp
    · exact Binding.confined_throw

theorem confined_headers (spec : Json) (call : CallContext) : (headers spec call).Confined P := by
  unfold headers
  refine (Binding.confined_lift (confined_requireResponse _ _)).bind fun response => ?_
  refine (Binding.confined_lift (confined_fieldsOf _ _)).bind fun names => ?_
  refine Binding.confined_bindEach (fun name spec env => ?_) _
  unfold headerValue
  split
  · split <;> simp
  · simp

theorem confined_text (spec : Json) (call : CallContext) : (text spec call).Confined P := by
  unfold text
  refine (Binding.confined_lift (confined_requireResponse _ _)).bind fun response => ?_
  split
  · exact Binding.confined_bind _ _
  · exact Binding.confined_throw

theorem confined_ofEngine {engine : Engine}
    (h : ∀ text env, Confined P (settle (engine text env))) (spec : Json) (call : CallContext) :
    (ofEngine engine spec call).Confined P := by
  unfold ofEngine
  refine (Binding.confined_lift (confined_fieldsOf _ _)).bind fun entries => ?_
  refine Binding.confined_bindEach (fun name spec env => ?_) _
  unfold expressionValue
  split
  · rename_i expression
    have he := h (env.expand expression) env
    unfold explained
    dsimp only
    cases hr : engine (env.expand expression) env with
    | ok value => simp
    | error t =>
      rw [hr] at he
      exact he.explain
  · simp

end Extractor

namespace Generator

theorem confined_json (spec : Json) (env : Environment) :
    Confined P (settle (json spec env)) := by simp [json]

theorem confined_text (spec : Json) (env : Environment) :
    Confined P (settle (text spec env)) := by
  unfold text
  split
  · simp
  · split <;> simp
  · simp

end Generator

theorem Cel.confined_evaluate (text : String) (env : Environment) :
    Confined P (settle (Cel.evaluate text env)) := by
  unfold Cel.evaluate
  dsimp only
  split
  · simp
  · split
    · simp
    · split <;> simp

namespace Plugins

/-- The plug-ins that are always there never fail with a failed assertion. -/
theorem standard_confined (P : Call → Prop) : standard.Confined P where
  assertions h := by
    have hm := Table.mem_of_get? h
    simp only [standard, List.mem_cons, Prod.mk.injEq, List.not_mem_nil, or_false] at hm
    rcases hm with ⟨_, rfl⟩ | ⟨_, rfl⟩ | ⟨_, rfl⟩ | ⟨_, rfl⟩ | ⟨_, rfl⟩
    · exact Assertion.confined_status
    · exact Assertion.confined_headers
    · exact Assertion.confined_json
    · exact Assertion.confined_contains
    · exact Assertion.confined_bound
  extractors h := by
    have hm := Table.mem_of_get? h
    simp only [standard, List.mem_cons, Prod.mk.injEq, List.not_mem_nil, or_false] at hm
    rcases hm with ⟨_, rfl⟩ | ⟨_, rfl⟩ | ⟨_, rfl⟩
    · exact Extractor.confined_json
    · exact Extractor.confined_headers
    · exact Extractor.confined_text
  generators h := by
    have hm := Table.mem_of_get? h
    simp only [standard, List.mem_cons, Prod.mk.injEq, List.not_mem_nil, or_false] at hm
    rcases hm with ⟨_, rfl⟩ | ⟨_, rfl⟩
    · exact Generator.confined_json
    · exact Generator.confined_text
  engines h := by
    have hm := Table.mem_of_get? h
    simp only [standard, List.mem_cons, Prod.mk.injEq, List.not_mem_nil, or_false] at hm
    obtain ⟨_, rfl⟩ := hm
    exact Cel.confined_evaluate

theorem confined_true (p : Plugins) : p.Confined fun _ => True where
  assertions _ _ _ _ := ApiScript.confined_true _
  extractors _ _ _ _ := ApiScript.confined_true _
  generators _ _ _ := ApiScript.confined_true _
  engines _ _ _ := ApiScript.confined_true _

def failingWith (call : Call) : Plugins :=
  { standard with
    extractors := standard.extractors.insert "fail" fun _ _ =>
      throw (Trouble.ofFault (.assertionFailed call)) }

end Plugins

end ApiScript
