import ApiScript.Session.Resolution
import Mathlib.Tactic.Common

/-! # How parts of a run end

A part of a run ends with a result and a session. How it ends is told from how its own parts end;
what is said about runs of scripts and about the resolution of documents rests on this.
-/

namespace ApiScript

variable {α β : Type} {s t u : Session} {f : Fault} {host : Host}

namespace Run

def Ends (m : Run α) (s : Session) (result : Except Fault α) (t : Session) : Prop :=
  m.run.run s = (result, t)

variable {result : Except Fault α} {m : Run α}

@[simp] theorem ends_pure {a : α} : Ends (pure a) s result t ↔ result = .ok a ∧ t = s := by
  change (Except.ok a, s) = (result, t) ↔ _
  grind

@[simp] theorem ends_throw : Ends (throw f) s result t ↔ result = .error f ∧ t = s := by
  change (Except.error f, s) = (result, t) ↔ _
  grind

@[simp] theorem ends_lift {e : Except Fault α} : (lift e).Ends s result t ↔ result = e ∧ t = s := by
  cases e with
  | ok a => exact ends_pure
  | error f => exact ends_throw

@[simp] theorem ends_get_bind {k : Session → Run α} :
    Ends (get >>= k) s result t ↔ (k s).Ends s result t := Iff.rfl

theorem run_bind {k : α → Run β} : (m >>= k).run.run s =
    match m.run.run s with
    | (.ok a, u) => (k a).run.run u
    | (.error f, u) => (.error f, u) := by
  change ExceptT.bindCont k (m s).1 (m s).2 = _
  rcases h : m s with ⟨_ | _, _⟩
  · simp only [ExceptT.run, StateT.run, h]
    rfl
  · simp only [ExceptT.run, StateT.run, h]
    rfl

theorem ends_bind {k : α → Run β} {result : Except Fault β} :
    Ends (m >>= k) s result t ↔
      (∃ f, m.Ends s (.error f) t ∧ result = .error f) ∨
        ∃ a u, m.Ends s (.ok a) u ∧ (k a).Ends u result t := by
  unfold Ends
  rw [run_bind]
  rcases m.run.run s with ⟨f | a, u⟩ <;> grind

theorem ends_lift_bind {e : Except Fault α} {k : α → Run β} {result : Except Fault β} :
    Ends (lift e >>= k) s result t ↔
      (∃ f, e = .error f ∧ result = .error f ∧ t = s) ∨ ∃ a, e = .ok a ∧ (k a).Ends s result t := by
  rw [ends_bind]
  simp only [ends_lift]
  grind

theorem Ends.unique {result' : Except Fault α} (h : m.Ends s result t)
    (h' : m.Ends s result' u) : result = result' ∧ t = u := by
  unfold Ends at h h'
  rw [h] at h'
  exact Prod.mk.inj h'

theorem run_runScript {script : Script} : (runScript host script).run.run s =
    match (Execution.runStrictly host script).run.run s with
    | (.ok none, t) => (.ok (), t)
    | (.ok (some call), t) => (.ok (), t.addCall call)
    | (.error (.assertionFailed call), t) => (.ok (), t.absorb call)
    | (.error f, t) => (.error f, t) := rfl

end Run

namespace Resolution

def Ends (x : Resolution) (s : Session) (result : Except Fault Unit) (t : Session) : Prop :=
  x.run.run s = some (result, t)

variable {result : Except Fault Unit} {x : Resolution} {redirect : Redirect}

@[simp] theorem ends_pure : Ends (pure ()) s result t ↔ result = .ok () ∧ t = s := by
  change some (Except.ok (), s) = some (result, t) ↔ _
  grind

@[simp] theorem ends_throw : Ends (throw f) s result t ↔ result = .error f ∧ t = s := by
  change some (Except.error f, s) = some (result, t) ↔ _
  grind

@[simp] theorem ends_modify {g : Session → Session} :
    Ends (modify g) s result t ↔ result = .ok () ∧ t = g s := by
  change some (Except.ok (), g s) = some (result, t) ↔ _
  grind

@[simp] theorem ends_get_bind {k : Session → Resolution} :
    Ends (get >>= k) s result t ↔ (k s).Ends s result t := Iff.rfl

@[simp] theorem ends_modify_bind {g : Session → Session} {k : Unit → Resolution} :
    Ends (modify g >>= k) s result t ↔ (k ()).Ends (g s) result t := Iff.rfl

@[simp] theorem ends_ofRun {m : Run Unit} : (ofRun m).Ends s result t ↔ m.Ends s result t := by
  change some (m.run.run s) = some (result, t) ↔ m.run.run s = (result, t)
  exact Option.some_inj

theorem not_ends_unending : ¬ unending.Ends s result t := by
  intro h
  cases h

theorem run_bind {k : Unit → Resolution} : (x >>= k).run.run s =
    match x.run.run s with
    | some (.ok _, u) => (k ()).run.run u
    | some (.error f, u) => some (.error f, u)
    | none => none := by
  change Option.bind (x s) (fun p => ExceptT.bindCont k p.1 p.2) = _
  rcases h : x s with _ | ⟨_ | _, _⟩
  · simp only [ExceptT.run, StateT.run, h]
    rfl
  · simp only [ExceptT.run, StateT.run, h]
    rfl
  · simp only [ExceptT.run, StateT.run, h]
    rfl

theorem ends_bind {k : Unit → Resolution} :
    Ends (x >>= k) s result t ↔
      (∃ f, x.Ends s (.error f) t ∧ result = .error f) ∨
        ∃ u, x.Ends s (.ok ()) u ∧ (k ()).Ends u result t := by
  unfold Ends
  rw [run_bind]
  rcases x.run.run s with _ | ⟨f | a, u⟩ <;> grind

theorem Ends.unique {result' : Except Fault Unit} (h : x.Ends s result t)
    (h' : x.Ends s result' u) : result = result' ∧ t = u := by
  unfold Ends at h h'
  rw [h] at h'
  exact Prod.mk.inj (Option.some.inj h')

theorem run_resolveAll_cons {document : Json} {rest : List Json} :
    (resolveAll host redirect (document :: rest)).run.run s =
      if s.observe.cancelled then some (.ok (), s.observe)
      else (resolve host redirect document >>= fun _ =>
        resolveAll host redirect rest).run.run s.observe := by
  rw [resolveAll]
  change (if s.observe.cancelled then _ else _ : Resolution).run.run s.observe = _
  split <;> rfl

theorem ends_resolveAll_nil :
    (resolveAll host redirect []).Ends s result t ↔ result = .ok () ∧ t = s := by
  rw [resolveAll]
  exact ends_pure

theorem ends_resolveAll_cons {document : Json} {rest : List Json} :
    (resolveAll host redirect (document :: rest)).Ends s result t ↔
      if s.observe.cancelled then result = .ok () ∧ t = s.observe
      else Ends (resolve host redirect document >>= fun _ => resolveAll host redirect rest)
        s.observe result t := by
  unfold Ends
  rw [run_resolveAll_cons]
  split
  · exact ends_pure
  · exact Iff.rfl

theorem run_resolveSources_cons {source : String} {rest : List String} :
    (resolveSources host redirect (source :: rest)).run.run s =
      if s.observe.cancelled then some (.ok (), s.observe)
      else (resolveSource host redirect source >>= fun _ =>
        resolveSources host redirect rest).run.run s.observe := by
  rw [resolveSources]
  change (if s.observe.cancelled then _ else _ : Resolution).run.run s.observe = _
  split <;> rfl

theorem ends_resolveSources_cons {source : String} {rest : List String} :
    (resolveSources host redirect (source :: rest)).Ends s result t ↔
      if s.observe.cancelled then result = .ok () ∧ t = s.observe
      else Ends (resolveSource host redirect source >>= fun _ => resolveSources host redirect rest)
        s.observe result t := by
  unfold Ends
  rw [run_resolveSources_cons]
  split
  · exact ends_pure
  · exact Iff.rfl

theorem read_eq_ok_iff {source : String} {documents : List Json} :
    read host source = .ok documents ↔ host.read source = .ok documents := by
  unfold read
  split <;> simp_all

theorem read_eq_error_iff {source : String} : read host source = .error f ↔
    ∃ causes, host.read source = .error causes ∧ f = .load source causes := by
  unfold read
  split <;> grind

theorem ends_resolveSource {source : String} :
    (resolveSource host redirect source).Ends s result t ↔
      (∃ f, read host source = .error f ∧ result = .error f ∧ t = s) ∨
        ∃ documents, read host source = .ok documents ∧
          (resolveAll host redirect documents).Ends s result t := by
  unfold resolveSource
  split <;> simp_all

theorem resolveText_of_at {text : String} {rest : List Char} (h : text.toList = '@' :: rest) :
    resolveText host redirect text = redirect (String.ofList rest) := by
  simp only [resolveText, h]

theorem run_resolveText_of_name {text : String} (h : ∀ rest, text.toList ≠ '@' :: rest) :
    (resolveText host redirect text).run.run s =
      match s.registry.script? text with
      | some script => some ((runScript host script).run.run s)
      | none => some (.error (.noSuchScript text), s) := by
  unfold resolveText
  split
  · exact (h _ ‹_›).elim
  · change (match s.registry.script? text with
      | some script => ofRun (runScript host script)
      | none => throw (Fault.noSuchScript text) : Resolution).run.run s = _
    cases s.registry.script? text <;> rfl

theorem ends_resolveText {text : String} :
    (resolveText host redirect text).Ends s result t ↔
      (∃ rest, text.toList = '@' :: rest ∧ (redirect (String.ofList rest)).Ends s result t) ∨
      (∀ rest, text.toList ≠ '@' :: rest) ∧
        ((s.registry.script? text = none ∧ result = .error (.noSuchScript text) ∧ t = s) ∨
          ∃ script, s.registry.script? text = some script ∧
            (runScript host script).Ends s result t) := by
  unfold resolveText
  split
  · simp_all
  · rw [ends_get_bind]
    split <;> simp_all

theorem ends_resolveScript {fields : Fields Json} :
    (resolveScript host fields).Ends s result t ↔
      (∃ f, Script.ofFields fields = .error f ∧ result = .error f ∧ t = s) ∨
      ∃ script, Script.ofFields fields = .ok script ∧
        ((script.name = none ∧ (runScript host script).Ends s result t) ∨
        ∃ name, script.name = some name ∧
          if script.isTemplate then result = .ok () ∧ t = s.setTemplate name script
          else (runScript host script).Ends (s.setScript name script) result t) := by
  unfold resolveScript
  split
  · simp_all
  · rename_i script hs
    split
    · simp_all
    · rename_i name hn
      split <;> simp_all

end Resolution

end ApiScript
