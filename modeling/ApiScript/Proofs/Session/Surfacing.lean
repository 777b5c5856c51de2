import ApiScript.Proofs.Plugin.Entries
import ApiScript.Proofs.Session.Judging
import ApiScript.Proofs.Session.Reaching
import ApiScript.Proofs.Session.Reserved

/-! # Trouble that comes to the surface

Plug-ins, engines and the transport report trouble. Explanations are added on its way, by the
assertions and extractors that ask an engine too. Whichever part of a script comes to it, the fault
that caused it is what the task ends with, and failed assertions are recorded.
-/

namespace ApiScript

variable {host : Host} {s t u v w : Session} {script m : Script} {call : CallContext}
  {trouble : Trouble} {added : List String} {f : Fault}

namespace Trouble

def under (added : List String) (t : Trouble) : Trouble :=
  { t with explanations := added ++ t.explanations }

theorem ofTrouble_under_of_fault (h : trouble.cause = .fault f) :
    Fault.ofTrouble (trouble.under added) = f := by
  rw [Fault.ofTrouble, under, h]

theorem ofTrouble_under_of_other {message : String} (h : trouble.cause = .other message) :
    Fault.ofTrouble (trouble.under added) =
      .plugin ((added ++ trouble.explanations).headD message) := by
  rw [Fault.ofTrouble, under, h]
  rfl

end Trouble

/-! ## What assertions and extractors add -/

/-- An assertion is told of trouble, to which it adds explanations: its own, or that of the engine
that it asks about one expression after the other. -/
inductive Assertion.Troubled (spec : Json) (call : CallContext) (env : Environment) :
    Assertion → Trouble → List String → Prop where
  | own {plugin : Assertion} {trouble : Trouble} : plugin spec call env = .error trouble →
      Troubled spec call env plugin trouble []
  | engine {engine : Engine} {before after : List String} {text : String} {trouble : Trouble} :
      textsOf "expression" spec = .ok (before ++ text :: after) →
      (∀ b ∈ before, ∃ value, engine (env.expand b) env = .ok value ∧ value.isTruthy = true) →
      engine (env.expand text) env = .error trouble →
      Troubled spec call env (ofEngine engine) trouble
        [s!"Failed to evaluate assertion '{env.expand text}'"]

theorem Assertion.expressions_append {engine : Engine} {env : Environment}
    {before after : List String}
    (h : ∀ b ∈ before, ∃ value, engine (env.expand b) env = .ok value ∧ value.isTruthy = true) :
    expressions engine env (before ++ after) = expressions engine env after := by
  induction before with
  | nil => rfl
  | cons b before ih =>
    obtain ⟨⟨value, hb, ht⟩, hbefore⟩ := List.forall_mem_cons.mp h
    rw [List.cons_append, expressions, hb]
    dsimp only
    rw [if_pos ht, ih hbefore]

theorem Assertion.Troubled.eq {plugin : Assertion} {spec : Json} {env : Environment}
    (h : plugin.Troubled spec call env trouble added) :
    plugin spec call env = .error (trouble.under added) := by
  cases h with
  | own h => exact h
  | engine hs hb he =>
    unfold ofEngine
    rw [hs]
    change expressions _ _ _ = _
    rw [expressions_append hb, expressions, he]
    rfl

inductive Extractor.Troubled (spec : Json) (call : CallContext) (v : Variables) :
    Extractor → Trouble → List String → Variables → Prop where
  | own {plugin : Extractor} {trouble : Trouble} {w : Variables} :
      (plugin spec call).run.run v = (.error trouble, w) →
      Troubled spec call v plugin trouble [] w
  | engine {engine : Engine} {before after : Fields Json} {name text : String} {trouble : Trouble}
      {w : Variables} :
      fieldsOf "script extractor" spec = .ok (before ++ (name, .string text) :: after) →
      (Binding.bindEach (expressionValue engine) before).run.run v = (.ok (), w) →
      engine (w.env.expand text) w.env = .error trouble →
      Troubled spec call v (ofEngine engine) trouble
        [s!"Failed to evaluate '{w.env.expand text}' for '{name}'"] w

theorem Extractor.Troubled.run_eq {plugin : Extractor} {spec : Json} {x y : Variables}
    (h : plugin.Troubled spec call x trouble added y) :
    (plugin spec call).run.run x = (.error (trouble.under added), y) := by
  cases h with
  | own h => exact h
  | @engine engine before after name text _ _ hs hb he =>
    unfold ofEngine
    rw [hs]
    change (Binding.bindEach (expressionValue engine)
      (before ++ (name, .string text) :: after)).run.run x = _
    rw [Binding.run_bindEach_append hb, Binding.run_bindEach_cons, expressionValue, he]
    rfl

namespace Execution

/-- The generator that the body of a script asks for, with what it is given. -/
inductive Generates (m : Script) (u : Session) : Generator → Json → Prop where
  | intro {spec : Json} : m.directive? "body" = some spec → spec ≠ .null →
      (∀ text, spec ≠ .string text) →
      Generates m u (generatorFor u.plugins spec).1 (generatorFor u.plugins spec).2

theorem Generates.body_eq {generator : Generator} {spec : Json} (h : Generates m u generator spec)
    (hg : generator spec u.env = .error trouble) : body u m = .error (Fault.ofTrouble trouble) := by
  cases h with
  | intro hd hn ht =>
    rw [body_of_spec hd hn ht, hg]
    rfl

/-- A script that runs comes to trouble, to which explanations are added, in the session that is the
last here. -/
inductive Meets (host : Host) (script : Script) (s : Session) :
    Trouble → List String → Session → Prop where
  | condition {m : Script} {u : Session} {text : String} {engine : Engine} {trouble : Trouble} :
      (complete script).Ends s (.ok m) s → (bindEnv m).Ends s (.ok ()) u →
      m.directive? "if" = some (.string text) → u.engine none = .ok engine →
      engine (u.env.expand text) u.env = .error trouble → Meets host script s trouble [] u
  | assertion {call : CallContext} {directive : String} {u : Session} {before after : List Check}
      {c : Check} {plugin : Assertion} {spec : Json} {trouble : Trouble} {added : List String} :
      Judges host script s call directive u →
      Check.ofItems (call.script.list directive) = before ++ c :: after →
      (∀ b ∈ before, ∃ verdict, b.verdict u call directive = .ok verdict) →
      c.assertion u call directive = .ok (plugin, spec) →
      plugin.Troubled spec call u.env trouble added → Meets host script s trouble added u
  | generator {m : Script} {u : Session} {method : Method} {url : String} {table : Table String}
      {generator : Generator} {spec : Json} {trouble : Trouble} : Proceeds script s m u →
      m.request = .ok (some (method, url)) → headers u m = .ok table →
      Generates m u generator spec → generator spec u.env = .error trouble →
      Meets host script s trouble [] u
  | transport {m : Script} {u : Session} {method : Method} {url : String} {built : Request}
      {trouble : Trouble} : Proceeds script s m u → m.request = .ok (some (method, url)) →
      request u m method url = .ok built → (host.transport u.sent built).1 = .error trouble →
      Meets host script s trouble [] (u.sending host built)
  | extractor {call : CallContext} {u : Session} {plugin : Extractor} {spec : Json}
      {trouble : Trouble} {added : List String} {x : Variables} :
      Comes host script s (plugin spec call) u → plugin.Troubled spec call u.vars trouble added x →
      Meets host script s trouble added { u with vars := x }

theorem verdict_of_trouble {c : Check} {directive : String} {plugin : Assertion} {spec : Json}
    (hc : c.assertion s call directive = .ok (plugin, spec))
    (ht : plugin spec call s.env = .error trouble) :
    c.verdict s call directive = .error (Fault.ofTrouble trouble) := by
  rw [Check.verdict, hc]
  change settle (plugin spec call s.env) = _
  rw [ht]
  rfl

theorem request_of_trouble {method : Method} {url : String} {table : Table String}
    (hh : headers u m = .ok table) (hb : body u m = .error f) :
    request u m method url = .error f := by
  rw [request, hh]
  change (body u m >>= fun _ => _) = _
  rw [hb]
  rfl

theorem Meets.ends (h : Meets host script s trouble added w) :
    (run host script).Ends s (.error (Fault.ofTrouble (trouble.under added))) w := by
  cases h with
  | condition hm hb hd he ht =>
    refine ends_run_iff.mpr (.condition hm hb ?_)
    rw [conditionHolds_of_engine hd he, ht]
    rfl
  | assertion hj hc hb hp ht =>
    exact hj.ends (failures_eq_error_iff.mpr ⟨_, _, _, hc, hb, verdict_of_trouble hp ht.eq⟩)
  | generator hp hm hh hg ht =>
    refine ends_run_iff.mpr (.request hp (ends_exchange_iff.mpr (.unbuilt hm ?_)))
    exact request_of_trouble hh (hg.body_eq ht)
  | transport hp hm hb ht =>
    exact ends_run_iff.mpr (.request hp (ends_exchange_iff.mpr (.unanswered hm hb ht)))
  | extractor hc ht => exact hc.ends ht.run_eq

end Execution

open Execution

theorem ends_runScript_of_meets (h : Meets host script s trouble added w)
    (hf : Fault.ofTrouble (trouble.under added) = f) (hn : f.isAssertionFailure = false) :
    (runScript host script).Ends s (.error f) w :=
  ends_runScript.mpr ⟨_, _, hf ▸ h.ends, .fault hn⟩

/-- Where a script that a task runs comes to trouble, the task ends with the fault that caused it.
If there is none, it ends with the outermost explanation. If failed assertions caused it, they are
recorded, and the task goes on. -/
theorem Task.trouble_surfaces {task : Task} {depth : Nat} {rest : Resolution}
    (hr : Resolution.Reaches host (task.body host depth) (task.opening s) script u rest)
    (hm : Meets host script u trouble added w) :
    (∀ f, trouble.cause = .fault f → f.isAssertionFailure = false →
      (task.run host depth).Ends s (.error f) w) ∧
    (∀ call, trouble.cause = .fault (.assertionFailed call) →
      (w.absorb call).ledger.calls = u.ledger.calls ++ [call] ∧
      ∀ result t, (task.run host depth).Ends s result t ↔ rest.Ends (w.absorb call) result t) ∧
    (∀ message, trouble.cause = .other message →
      (task.run host depth).Ends s
        (.error (.plugin ((added ++ trouble.explanations).headD message))) w) := by
  have hbody : ∀ result t, (task.run host depth).Ends s result t ↔
      (task.body host depth).Ends (task.opening s) result t := by
    intro result t
    unfold Resolution.Ends
    rw [task.run_eq_body]
  simp only [hbody]
  refine ⟨fun f hf hn => ?_, fun call hf => ⟨?_, fun result t => ?_⟩, fun message ho => ?_⟩
  · exact hr.ends_of_error (ends_runScript_of_meets hm (Trouble.ofTrouble_under_of_fault hf) hn)
  · obtain ⟨v, hv, -⟩ := w.absorb_eq call
    rw [hv, ← run_ledger hm.ends]
  · have hrun := hm.ends
    rw [Trouble.ofTrouble_under_of_fault hf] at hrun
    exact hr.ends_iff_of_ok (ends_runScript.mpr ⟨_, _, hrun, .carried⟩)
  · exact hr.ends_of_error (ends_runScript_of_meets hm (Trouble.ofTrouble_under_of_other ho) rfl)

theorem Task.trouble_surfaces_redirected :
    let carried : Call := ⟨⟨some "z", [], []⟩, none, none, [], 0⟩
    let host : Host := ⟨fun
      | [], _ => (.error ⟨["unanswered"], .fault (.assertionFailed carried)⟩, false)
      | _, _ => (.error ⟨["unanswered", "lost"], .fault (.noSuchScript "x")⟩, false),
      fun _ => .ok [.array [.object [("GET", .string "a")], .object [("PUT", .string "b")]]]⟩
    let task : Task := .execute [.array [.string "@f"], .string "y"]
    ∃ s t, Session.start Environment.empty Settings.standard Plugins.standard = .ok s ∧
      (task.run host 1).Ends s (.error (.noSuchScript "x")) t ∧ t.ledger.calls = [carried] ∧
      t.sent.length = 2 := by
  intro carried host task
  let first : Script := ⟨none, [], [("GET", .string "a")]⟩
  let second : Script := ⟨none, [], [("PUT", .string "b")]⟩
  obtain ⟨s, u, w, hs, hl, hfirst, hmeets, hsecond, hmeets', hw, hsent⟩ : ∃ s u w,
      Session.start Environment.empty Settings.standard Plugins.standard = .ok s ∧
      s.ledger.calls = [] ∧
      .run true first s (.ok ()) (u.absorb carried) ∈ (task.course host 1 s).deeds ∧
      Meets host first s ⟨["unanswered"], .fault (.assertionFailed carried)⟩ [] u ∧
      .run true second (u.absorb carried) (.error (.noSuchScript "x")) w ∈
        (task.course host 1 s).deeds ∧
      Meets host second (u.absorb carried) ⟨["unanswered", "lost"], .fault (.noSuchScript "x")⟩ []
        w ∧
      w.ledger = (u.absorb carried).ledger ∧ w.sent.length = 2 :=
    ⟨_, _, _, rfl, rfl, .tail _ (.head _), .transport ⟨rfl, rfl, rfl, rfl⟩ rfl rfl rfl,
      .tail _ (.tail _ (.head _)), .transport ⟨rfl, rfl, rfl, rfl⟩ rfl rfl rfl, rfl, rfl⟩
  obtain ⟨_, hr⟩ := task.reachedBy_course host 1 s _ _ _ _ _ hfirst
  obtain ⟨_, hr'⟩ := task.reachedBy_course host 1 s _ _ _ _ _ hsecond
  obtain ⟨-, hcarried, -⟩ := Task.trouble_surfaces hr hmeets
  obtain ⟨hfault, -, -⟩ := Task.trouble_surfaces hr' hmeets'
  refine ⟨s, w, hs, hfault _ rfl rfl, ?_, hsent⟩
  rw [hw, (hcarried carried rfl).1, hl]
  rfl

end ApiScript
