import ApiScript.Plugin.Standard
import ApiScript.Proofs.Table
import ApiScript.Session.Execution
import Mathlib.Tactic.Common

/-! # Attempts to bind a variable

What looks at variables and binds some tries to bind one name after the other. If it stops at the
first one that is refused, as all that bind variables by themselves do, then an attempt to bind a
reserved name is the last, and the variables stay as they were at that moment.
-/

namespace ApiScript

variable {α β : Type} {name : String}

theorem Environment.get?_of_bind {env next : Environment} {other : String} {value : Json}
    (h : env.bind other value = .ok next) (hne : other ≠ name) :
    next.get? name = env.get? name := by
  unfold Environment.bind at h
  split at h
  · cases h
  · cases h
    exact Table.get?_insert.trans (if_neg hne)

theorem Environment.get?_bind_self {env next : Environment} {value : Json}
    (h : env.bind name value = .ok next) : next.get? name = some value := by
  unfold Environment.bind at h
  split at h
  · cases h
  · cases h
    exact Table.get?_insert.trans (if_pos rfl)

theorem Variables.get?_of_bind {v w : Variables} {other : String} {value : Json}
    (h : v.bind other value = .ok w) (hne : other ≠ name) :
    w.env.get? name = v.env.get? name := by
  unfold Variables.bind at h
  split at h
  · cases h
  · cases h
    exact Environment.get?_of_bind ‹_› hne

namespace Binding

/-- What runs with some variables comes to bind a name; the last are the variables at that
moment. -/
inductive Attempts : Binding α → Variables → String → Variables → Prop where
  | look {next : Environment → Binding α} {v w : Variables} {name : String} :
      Attempts (next v.env) v name w → Attempts (.look next) v name w
  | here {name : String} {value : Json} {next : Except Fault Unit → Binding α} {v : Variables} :
      Attempts (.bindThen name value next) v name v
  | refused {earlier : String} {value : Json} {next : Except Fault Unit → Binding α} {f : Fault}
      {v w : Variables} {name : String} : v.bind earlier value = .error f →
      Attempts (next (.error f)) v name w → Attempts (.bindThen earlier value next) v name w
  | bound {earlier : String} {value : Json} {next : Except Fault Unit → Binding α}
      {u v w : Variables} {name : String} : v.bind earlier value = .ok u →
      Attempts (next (.ok ())) u name w → Attempts (.bindThen earlier value next) v name w

/-- The variables at some moment of what runs with some variables, its beginning and its end
included. -/
inductive Visits : Binding α → Variables → Variables → Prop where
  | here {b : Binding α} {v : Variables} : Visits b v v
  | look {next : Environment → Binding α} {v w : Variables} :
      Visits (next v.env) v w → Visits (.look next) v w
  | refused {name : String} {value : Json} {next : Except Fault Unit → Binding α} {f : Fault}
      {v w : Variables} : v.bind name value = .error f → Visits (next (.error f)) v w →
      Visits (.bindThen name value next) v w
  | bound {name : String} {value : Json} {next : Except Fault Unit → Binding α}
      {u v w : Variables} : v.bind name value = .ok u → Visits (next (.ok ())) u w →
      Visits (.bindThen name value next) v w

theorem visits_run (b : Binding α) (v : Variables) : b.Visits v (b.run.run v).2 := by
  induction b generalizing v with
  | done result => exact .here
  | look next ih => exact .look (ih _ v)
  | bindThen name value next ih =>
    change Visits _ v (Binding.run _ v).2
    rw [Binding.run]
    cases hv : v.bind name value with
    | error f => exact .refused hv (ih _ v)
    | ok u => exact .bound hv (ih _ u)

theorem Visits.get?_eq {b : Binding α} {v w : Variables} (h : b.Visits v w)
    (ha : ∀ x, ¬ b.Attempts v name x) : w.env.get? name = v.env.get? name := by
  induction h with
  | here => rfl
  | look _ ih => exact ih fun x hx => ha x (.look hx)
  | refused hv _ ih => exact ih fun x hx => ha x (.refused hv hx)
  | @bound other value next u v w hv _ ih =>
    have hne : other ≠ name := by
      rintro rfl
      exact ha v .here
    rw [ih fun x hx => ha x (.bound hv hx), Variables.get?_of_bind hv hne]

theorem not_attempts_bindEach {find : String → Json → Environment → Except Trouble Json}
    {fields : Fields Json} {v w : Variables} (h : name ∉ Fields.names fields) :
    ¬ (bindEach find fields).Attempts v name w := by
  intro ha
  induction fields generalizing v with
  | nil => cases ha
  | cons field rest ih =>
    obtain ⟨other, spec⟩ := field
    obtain ⟨hne, hr⟩ := not_or.mp (List.mem_cons.not.mp h)
    cases ha with
    | look ha =>
      change Attempts (do
        let value ← lift (find other spec v.env)
        bind other value
        bindEach find rest) v name w at ha
      cases hf : find other spec v.env with
      | error trouble =>
        rw [hf] at ha
        cases ha
      | ok value =>
        rw [hf] at ha
        cases ha with
        | here => exact hne rfl
        | refused _ ha => cases ha
        | bound _ ha => exact ih hr ha

def Strict : Binding α → Prop
  | .done _ => True
  | .look next => ∀ env, (next env).Strict
  | .bindThen _ _ next =>
    (∀ f, next (.error f) = .done (.error (Trouble.ofFault f))) ∧ (next (.ok ())).Strict

theorem lift_ok_bind (a : α) (k : α → Binding β) : (lift (.ok a) >>= k) = k a := rfl

theorem strict_lift (result : Except Trouble α) : (lift result).Strict := trivial

theorem strict_throw (t : Trouble) : (throw t : Binding α).Strict := trivial

theorem strict_env : env.Strict := fun _ => trivial

theorem strict_bind (name : String) (value : Json) : (bind name value).Strict :=
  ⟨fun _ => rfl, trivial⟩

theorem Strict.andThen {b : Binding α} {k : α → Binding β} (h : b.Strict)
    (hk : ∀ a, (k a).Strict) : (b >>= k).Strict := by
  change (b.andThen _).Strict
  induction b with
  | done result =>
    cases result with
    | ok a => exact hk a
    | error t => trivial
  | look next ih => exact fun env => ih env (h env)
  | bindThen name value next ih =>
    refine ⟨fun f => ?_, ih _ h.2⟩
    dsimp only
    rw [h.1 f]
    rfl

theorem strict_bindEach (find : String → Json → Environment → Except Trouble Json)
    (fields : Fields Json) : (bindEach find fields).Strict := by
  induction fields with
  | nil => trivial
  | cons field rest ih =>
    refine strict_env.andThen fun env => (strict_lift _).andThen fun value => ?_
    exact (strict_bind _ value).andThen fun _ => ih

theorem bind_of_reserved (h : Environment.isReserved name = true) (v : Variables) (value : Json) :
    v.bind name value = .error (.reservedName name) := by
  rw [Variables.bind, Environment.bind, if_pos h]

/-- An attempt to bind a reserved name is the last, and what was bound before it stays. -/
theorem Strict.run_of_attempts {b : Binding α} {v w : Variables} (hb : b.Strict)
    (h : b.Attempts v name w) (hr : Environment.isReserved name = true) :
    b.run.run v = (.error (Trouble.ofFault (.reservedName name)), w) := by
  change Binding.run b v = _
  induction h with
  | look _ ih =>
    rw [Binding.run]
    exact ih (hb _) hr
  | here =>
    rw [Binding.run, bind_of_reserved hr]
    dsimp only
    rw [hb.1]
    rfl
  | refused _ h _ =>
    rw [hb.1] at h
    cases h
  | bound hu _ ih =>
    rw [Binding.run, hu]
    exact ih hb.2 hr

/-- The variables of a script, and the extractors that are always there, are what binds variables by
itself. An engine is asked for values only. -/
inductive IsStandard : Binding Unit → Prop where
  | bindVariables (fields : Fields Json) : IsStandard (Execution.bindVariables fields)
  | json (spec : Json) (call : CallContext) : IsStandard (Extractor.json spec call)
  | headers (spec : Json) (call : CallContext) : IsStandard (Extractor.headers spec call)
  | text (spec : Json) (call : CallContext) : IsStandard (Extractor.text spec call)
  | expressions (engine : Engine) (spec : Json) (call : CallContext) :
      IsStandard (Extractor.ofEngine engine spec call)

end Binding

namespace Extractor

open Binding

theorem strict_json (spec : Json) (call : CallContext) : (json spec call).Strict := by
  refine (strict_lift _).andThen fun response => ?_
  split
  · exact strict_throw _
  · split
    · exact strict_env.andThen fun env => strict_bind _ _
    · exact strict_bindEach _ _
    · exact strict_throw _

theorem strict_headers (spec : Json) (call : CallContext) : (headers spec call).Strict :=
  (strict_lift _).andThen fun _ => (strict_lift _).andThen fun _ => strict_bindEach _ _

theorem strict_text (spec : Json) (call : CallContext) : (text spec call).Strict := by
  refine (strict_lift _).andThen fun response => ?_
  split
  · exact strict_bind _ _
  · exact strict_throw _

theorem strict_ofEngine (engine : Engine) (spec : Json) (call : CallContext) :
    (ofEngine engine spec call).Strict :=
  (strict_lift _).andThen fun _ => strict_bindEach _ _

theorem attempts_json {call : CallContext} {response : Response} {body : Json} {text : String}
    {v : Variables} (hr : call.response = some response) (hj : response.json? = some body) :
    (json (.string text) call).Attempts v (v.env.expand text) v := by
  have hq : call.requireResponse "json extractor" = .ok response := by
    rw [CallContext.requireResponse, hr]
  unfold json
  rw [hq, lift_ok_bind]
  dsimp only
  rw [hj]
  exact .look .here

theorem not_attempts_text {spec : Json} (h : spec ≠ .string name) (call : CallContext)
    {v w : Variables} : ¬ (text spec call).Attempts v name w := by
  intro ha
  unfold text at ha
  cases hr : call.requireResponse "text extractor" with
  | error trouble =>
    rw [hr] at ha
    cases ha
  | ok response =>
    rw [hr, lift_ok_bind] at ha
    cases spec with
    | string other =>
      cases ha with
      | here => exact h rfl
      | refused _ ha => cases ha
      | bound _ ha => cases ha
    | _ => cases ha

end Extractor

theorem Binding.IsStandard.strict {b : Binding Unit} (h : b.IsStandard) : b.Strict := by
  cases h with
  | bindVariables fields => exact strict_bindEach _ _
  | json spec call => exact Extractor.strict_json spec call
  | headers spec call => exact Extractor.strict_headers spec call
  | text spec call => exact Extractor.strict_text spec call
  | expressions engine spec call => exact Extractor.strict_ofEngine engine spec call

end ApiScript
