import ApiScript.Proofs.Inheritance.Lineage
import ApiScript.Proofs.Session.Course
import ApiScript.Proofs.Session.Outcome
import ApiScript.Proofs.Session.Traffic

/-! # Scripts that are run again by their names

A script object with a name is kept as it is written, before it is run and whatever comes of that.
Templates are merged into a copy of it, each time anew. So its name stands for the object from then
on, and both take in the templates that are kept when they are run.
-/

namespace ApiScript

open Relation

variable {host : Host} {depth : Nat} {script template : Script} {fields : Fields Json}
  {name : String} {s t u : Session} {result : Except Fault Unit}

namespace Execution

def runCompleted (host : Host) (script : Script) : Run (Option Call) := do
  bindEnv script
  if ← Run.lift (conditionHolds script (← get)) then
    let unmet ← Run.lift (failures (← get) ⟨script, none, none⟩ "preconditions")
    if unmet.isEmpty then
      return some (← conclude (← exchange host script))
    else return some ⟨script, none, none, unmet, 0⟩
  else return none

theorem run_eq_runCompleted : run host script = complete script >>= runCompleted host := rfl

/-- How a script that may have been completed is run and recorded: not at all if it has not. -/
def EndsCompleted (host : Host) (completed : Except Fault Script) (s : Session)
    (result : Except Fault Unit) (t : Session) : Prop :=
  match completed with
  | .error f => result = .error f ∧ t = s
  | .ok merged => ∃ found u, (runCompleted host merged).Ends s found u ∧ u.Records found result t

theorem ends_runScript_iff : (runScript host script).Ends s result t ↔
    EndsCompleted host (s.registry.applyTemplates script) s result t := by
  cases hm : s.registry.applyTemplates script with
  | error f =>
    constructor
    · exact fun h => h.unique (runScript_of_stuck hm)
    · rintro ⟨rfl, rfl⟩
      exact runScript_of_stuck hm
  | ok merged =>
    have hr : ∀ found u, (run host script).Ends s found u ↔
        (runCompleted host merged).Ends s found u := by
      intro found u
      rw [run_eq_runCompleted, Run.ends_bind]
      simp only [ends_complete, hm]
      grind
    simp only [ends_runScript, hr, EndsCompleted]

end Execution

/-! ## What is kept -/

theorem Registry.script?_setScript (r : Registry) (name : String) (script : Script) :
    (r.setScript name script).script? name = some script := by
  rw [script?, setScript, Table.get?_insert, if_pos rfl]

theorem Registry.template?_setTemplate (r : Registry) (name : String) (template : Script) :
    (r.setTemplate name template).template? name = some template := by
  rw [template?, setTemplate, Table.get?_insert, if_pos rfl]

theorem Script.exists_name (h : script.isTemplate = true) : ∃ name, script.name = some name := by
  unfold isTemplate at h
  cases hn : script.name with
  | none =>
    rw [hn] at h
    cases h
  | some name => exact ⟨name, rfl⟩

theorem Session.setScript_of_script? (h : s.registry.script? name = some script) :
    s.setScript name script = s := by
  unfold setScript Registry.setScript
  rw [Table.insert_of_get? h]

namespace Task

theorem ends_object (hs : Script.ofFields fields = .ok script) (hn : script.name = some name) :
    ((document (.object fields)).run host depth).Ends s result t ↔
      if script.isTemplate then result = .ok () ∧ t = s.setTemplate name script
      else (runScript host script).Ends (s.setScript name script) result t := by
  have hr : (document (.object fields)).run host depth = Resolution.resolveScript host fields := by
    rw [run, Session.resolve, Resolution.resolve]
  rw [hr, Resolution.ends_resolveScript, hs]
  simp [hn]

theorem deeds_template (hs : Script.ofFields fields = .ok template)
    (hn : template.name = some name) (ht : template.isTemplate = true) :
    ((document (.object fields)).course host depth s).deeds = [] := by
  have hc : (document (.object fields)).course host depth s =
      Course.idle (.ok ()) (s.setTemplate name template) := by
    simp only [course, opening, isExecution, Course.resolve, Course.resolveScript, hs, hn, ht,
      Bool.false_eq_true, if_false, if_true]
  rw [hc, Course.idle]

theorem ends_kept (ha : ∀ rest, name.toList ≠ '@' :: rest)
    (hk : s.registry.script? name = some script) :
    ((document (.string name)).run host depth).Ends s result t ↔
      (runScript host script).Ends s result t := by
  have hr : (document (.string name)).run host depth =
      Resolution.resolveText host (Resolution.follow host depth) name := by
    rw [run, Session.resolve, Resolution.resolve]
  rw [hr, Resolution.ends_resolveText]
  constructor
  · rintro (⟨rest, hat, -⟩ | ⟨-, ⟨hnone, -⟩ | ⟨kept, hk', h⟩⟩)
    · exact (ha rest hat).elim
    · cases hk.symm.trans hnone
    · cases hk.symm.trans hk'
      exact h
  · exact fun h => .inr ⟨ha, .inr ⟨script, hk, h⟩⟩

/-- In a session two tasks are run alike, as a script that takes in the templates that are kept
there; this leaves what is kept as it is. -/
structure RunsAlike (host : Host) (script : Script) (a b : Task) (s : Session) : Prop where
  ends : ∃ result t, ∀ depth, (a.run host depth).Ends s result t
  same : ∀ depth result t,
    (a.run host depth).Ends s result t ↔ (b.run host depth).Ends s result t
  completed : ∀ depth result t, (a.run host depth).Ends s result t ↔
    Execution.EndsCompleted host (s.registry.applyTemplates script) s result t
  keeps : ∀ depth result t, (a.run host depth).Ends s result t → t.registry = s.registry

theorem runsAlike_of_kept (hs : Script.ofFields fields = .ok script)
    (hn : script.name = some name) (ht : script.isTemplate = false)
    (ha : ∀ rest, name.toList ≠ '@' :: rest) (hk : s.registry.script? name = some script)
    (host : Host) :
    RunsAlike host script (document (.string name)) (document (.object fields)) s where
  ends := by
    obtain ⟨result, t, h⟩ : ∃ result t, (runScript host script).Ends s result t := ⟨_, _, rfl⟩
    exact ⟨result, t, fun depth => (ends_kept ha hk).mpr h⟩
  same depth result t := by
    rw [ends_kept ha hk, ends_object hs hn, if_neg (Bool.eq_false_iff.mp ht),
      Session.setScript_of_script? hk]
  completed depth result t := (ends_kept ha hk).trans Execution.ends_runScript_iff
  keeps depth result t h := (keepsRest_runScript ((ends_kept ha hk).mp h)).registry

/-- A script object is run once more, be it by its name, or a template is kept. -/
inductive RunsOn (host : Host) (name : String) (fields : Fields Json) : Session → Session → Prop
    where
  | name {s t : Session} {depth : Nat} {result : Except Fault Unit} :
      ((document (.string name)).run host depth).Ends s result t → RunsOn host name fields s t
  | object {s t : Session} {depth : Nat} {result : Except Fault Unit} :
      ((document (.object fields)).run host depth).Ends s result t → RunsOn host name fields s t
  | template {s t : Session} {depth : Nat} {result : Except Fault Unit} {own : Fields Json}
      {template : Script} : Script.ofFields own = .ok template → template.isTemplate = true →
      ((document (.object own)).run host depth).Ends s result t → RunsOn host name fields s t

theorem RunsOn.script? (hs : Script.ofFields fields = .ok script) (hn : script.name = some name)
    (ht : script.isTemplate = false) (ha : ∀ rest, name.toList ≠ '@' :: rest)
    (h : RunsOn host name fields s t) (hk : s.registry.script? name = some script) :
    t.registry.script? name = some script := by
  have hr := runsAlike_of_kept hs hn ht ha hk host
  cases h with
  | name h => rwa [hr.keeps _ _ _ h]
  | object h => rwa [hr.keeps _ _ _ ((hr.same _ _ _).mpr h)]
  | template ho hot h =>
    obtain ⟨other, hother⟩ := Script.exists_name hot
    rw [ends_object ho hother, if_pos hot] at h
    obtain ⟨-, rfl⟩ := h
    exact hk

/-- However a script object ends that is resolved, the script is kept under its name as it is
written, without anything of its templates. From then on the name and the object are run alike, with
the same result and in the same session at the end, with what is sent and what listeners are told,
however often they are run and whatever templates are kept in between. To keep a template changes
nothing else and runs nothing, and both take in all directives of it, if they reach it. -/
theorem name_reruns_object (hs : Script.ofFields fields = .ok script)
    (hn : script.name = some name) (ht : script.isTemplate = false)
    (ha : ∀ rest, name.toList ≠ '@' :: rest) (host : Host) (depth : Nat) (s : Session) :
    (∃ result t, ((document (.object fields)).run host depth).Ends s result t) ∧
    ∀ result t, ((document (.object fields)).run host depth).Ends s result t →
      t.registry = s.registry.setScript name script ∧
      ∀ u, ReflTransGen (RunsOn host name fields) t u →
        u.registry.script? name = some script ∧
        RunsAlike host script (document (.string name)) (document (.object fields)) u ∧
        ∀ own template, Script.ofFields own = .ok template → template.isTemplate = true →
          ∃ other, template.name = some other ∧
            let v := u.setTemplate other template
            (∀ depth, ((document (.object own)).run host depth).Ends u (.ok ()) v ∧
              ((document (.object own)).course host depth u).deeds = []) ∧
            v.registry.template? other = some template ∧
            RunsAlike host script (document (.string name)) (document (.object fields)) v ∧
            ∀ merged, v.registry.applyTemplates script = .ok merged →
              v.registry.Reaches script other → merged.Covers template := by
  have hobject : ∀ result t, ((document (.object fields)).run host depth).Ends s result t ↔
      (runScript host script).Ends (s.setScript name script) result t := by
    intro result t
    rw [ends_object hs hn, if_neg (Bool.eq_false_iff.mp ht)]
  refine ⟨⟨_, _, (hobject _ _).mpr rfl⟩, fun result t h => ?_⟩
  have hr : t.registry = s.registry.setScript name script :=
    (keepsRest_runScript ((hobject result t).mp h)).registry
  refine ⟨hr, fun u hu => ?_⟩
  have hk : u.registry.script? name = some script := by
    induction hu with
    | refl => rw [hr, Registry.script?_setScript]
    | tail _ hstep ih => exact hstep.script? hs hn ht ha ih
  refine ⟨hk, runsAlike_of_kept hs hn ht ha hk host, fun own template ho hot => ?_⟩
  obtain ⟨other, hother⟩ := Script.exists_name hot
  have hv : (u.setTemplate other template).registry.template? other = some template :=
    u.registry.template?_setTemplate other template
  refine ⟨other, hother, fun depth => ⟨?_, ?_⟩, hv, ?_, ?_⟩
  · rw [ends_object ho hother, if_pos hot]
    exact ⟨rfl, rfl⟩
  · exact deeds_template ho hother hot
  · exact runsAlike_of_kept hs hn ht ha (s := u.setTemplate other template) hk host
  · exact fun merged hm hreach => Registry.covers_of_reaches hm hreach hv

theorem name_reruns_object_with_template :
    let fields := [("name", .string "x"), ("template", .string "b.template")]
    let own := [("GET", .string "a"), ("name", .string "b.template")]
    let host := Host.always ⟨200, [], ""⟩
    ∃ script t u v, Script.ofFields fields = .ok script ∧ script.name = some "x" ∧
      script.isTemplate = false ∧ (∀ rest, "x".toList ≠ '@' :: rest) ∧
      ((document (.object fields)).run host 0).Ends (.blank Plugins.standard)
        (.error (.noSuchTemplate "b.template")) t ∧
      t.registry.script? "x" = some script ∧
      ((document (.object own)).run host 0).Ends t (.ok ()) u ∧
      ((document (.string "x")).run host 0).Ends u (.ok ()) v ∧
      ((document (.object fields)).run host 0).Ends u (.ok ()) v ∧ v.sent.length = 1 := by
  intro fields own host
  let script : Script := ⟨some "x", ["b.template"], []⟩
  let template : Script := ⟨some "b.template", [], [("GET", .string "a")]⟩
  let t := (Session.blank Plugins.standard).setScript "x" script
  let u := t.setTemplate "b.template" template
  have hs : Script.ofFields fields = .ok script := rfl
  have ht : script.isTemplate = false := by decide
  have ha : ∀ rest, "x".toList ≠ '@' :: rest := by simp
  have hown : Script.ofFields own = .ok template := rfl
  have hot : template.isTemplate = true := by decide
  have hstuck : t.registry.applyTemplates script = .error (.noSuchTemplate "b.template") := by
    rw [Registry.applyTemplates]
    exact (Registry.complete_cons []).trans rfl
  have hmerged : u.registry.applyTemplates script = .ok (script.inherit template) := by
    have hnil : ∀ path target, u.registry.complete path target [] = .ok target :=
      fun _ _ => by rw [Registry.complete]
    exact (Registry.complete_cons_of_ok (by decide) rfl (hnil _ template)).trans (hnil _ _)
  have h : ((document (.object fields)).run host 0).Ends (.blank Plugins.standard)
      (.error (.noSuchTemplate "b.template")) t := by
    rw [ends_object hs rfl, if_neg (Bool.eq_false_iff.mp ht)]
    exact runScript_of_stuck hstuck
  have hu : ((document (.object own)).run host 0).Ends t (.ok ()) u := by
    rw [ends_object hown rfl, if_pos hot]
    exact ⟨rfl, rfl⟩
  obtain ⟨-, hall⟩ := name_reruns_object hs rfl ht ha host 0 (.blank Plugins.standard)
  obtain ⟨-, hafter⟩ := hall _ _ h
  obtain ⟨hk, -, -⟩ := hafter t .refl
  obtain ⟨-, hruns, -⟩ := hafter u (.single (.template hown hot hu))
  obtain ⟨v, hv, hsent⟩ : ∃ v, Execution.EndsCompleted host (.ok (script.inherit template)) u
      (.ok ()) v ∧ v.sent.length = 1 := ⟨_, ⟨_, _, rfl, .passed rfl⟩, rfl⟩
  have hname : ((document (.string "x")).run host 0).Ends u (.ok ()) v := by
    rw [hruns.completed, hmerged]
    exact hv
  exact ⟨script, t, u, v, hs, rfl, ht, ha, h, hk, hu, hname, (hruns.same _ _ _).mp hname, hsent⟩

end Task

end ApiScript
