import ApiScript.Registry
import Mathlib.Logic.Relation
import Mathlib.Data.List.Chain

/-! # Templates that a script reaches

Completing a script succeeds exactly when all templates that it reaches are registered and none of
them leads back to itself or to the script. It fails with a way round that is really there, or with
a template that is missing, and it is nested no deeper than the number of registered templates.
-/

namespace ApiScript

open Relation

namespace Registry

variable {r : Registry} {s target m : Script} {path names walk : List String}
  {name next : String} {f : Fault}

def Lists (r : Registry) (name next : String) : Prop :=
  ∃ t, r.template? name = some t ∧ next ∈ t.templates

/-- A script lists a name, or a name that leads to it. -/
def Reaches (r : Registry) (s : Script) (name : String) : Prop :=
  ∃ first ∈ s.templates, ReflTransGen r.Lists first name

/-- All that a script reaches is registered, and no way leads round. -/
structure Completes (r : Registry) (s : Script) : Prop where
  registered : ∀ name, r.Reaches s name → (r.template? name).isSome
  acyclic : ∀ name, r.Reaches s name → ¬ TransGen r.Lists name name
  apart : ∀ name, s.isTemplate → s.name = some name → ¬ r.Reaches s name

/-- Names of which the first is among some given ones, and each other one is listed by the template
before it. -/
def IsWalk (r : Registry) (names walk : List String) : Prop :=
  walk.IsChain r.Lists ∧ ∀ name ∈ walk.head?, name ∈ names

/-- A way from a script that comes back to one of its own names: to the script itself, if that is a
template, or to a template on the way. -/
structure IsCycle (r : Registry) (s : Script) (cycle : List String) : Prop where
  way : ∃ walk last, cycle = pathOf s ++ walk ++ [last] ∧ r.IsWalk s.templates (walk ++ [last])
  nodup : cycle.dropLast.Nodup
  again : ∃ last ∈ cycle.dropLast, cycle.getLast? = some last

theorem IsWalk.cons {t : Script} (ht : r.template? name = some t) (hm : name ∈ names)
    (h : r.IsWalk t.templates walk) : r.IsWalk names (name :: walk) := by
  refine ⟨List.isChain_cons.mpr ⟨fun next hn => ⟨t, ht, h.2 next hn⟩, h.1⟩, ?_⟩
  simpa using hm

theorem isWalk_singleton (hm : name ∈ names) : r.IsWalk names [name] :=
  ⟨List.isChain_singleton _, by simpa using hm⟩

theorem IsWalk.mono {names' : List String} (h : r.IsWalk names walk)
    (hs : ∀ name ∈ names, name ∈ names') : r.IsWalk names' walk :=
  ⟨h.1, fun name hn => hs name (h.2 name hn)⟩

theorem IsWalk.reaches {last : String} (h : r.IsWalk s.templates (walk ++ [last])) :
    r.Reaches s last := by
  cases walk with
  | nil => exact ⟨last, h.2 last rfl, .refl⟩
  | cons first rest =>
    exact ⟨first, h.2 first rfl, List.relationReflTransGen_of_exists_isChain_cons _ h.1 (by simp)⟩

theorem complete_cons (rest : List String) :
    r.complete path target (name :: rest) =
      if name ∈ path then .error (.templateCycle (path ++ [name]))
      else match r.template? name with
        | none => .error (.noSuchTemplate name)
        | some t => match r.complete (path ++ [name]) t t.templates.reverse with
          | .error f => .error f
          | .ok resolved => r.complete path (target.inherit resolved) rest := by
  rw [complete]
  split
  · rfl
  · split
    · rename_i hn
      simp only [hn]
    · rename_i t ht
      cases hr : r.complete (path ++ [name]) t t.templates.reverse with
      | error f => simp only [ht, hr]
      | ok resolved => simp only [ht, hr]

/-- Why completing fails, when `path` leads to a script that lists `names`: a way comes back to a
name on it, or it comes to a name that is not registered. -/
inductive Stuck (r : Registry) (path names : List String) : Fault → Prop where
  | cycle (walk : List String) (last : String) : r.IsWalk names (walk ++ [last]) →
      (path ++ walk).Nodup → last ∈ path ++ walk →
      Stuck r path names (.templateCycle (path ++ walk ++ [last]))
  | missing (walk : List String) (last : String) : r.IsWalk names (walk ++ [last]) →
      r.template? last = none → Stuck r path names (.noSuchTemplate last)

theorem Stuck.cons {t : Script} (ht : r.template? name = some t) (hm : name ∈ names)
    (h : r.Stuck (path ++ [name]) t.templates f) : r.Stuck path names f := by
  cases h with
  | cycle walk last hw hd hl =>
    have : r.Stuck path names (.templateCycle (path ++ (name :: walk) ++ [last])) :=
      .cycle (name :: walk) last (hw.cons ht hm) (by simpa using hd) (by simpa using hl)
    simpa using this
  | missing walk last hw hn => exact .missing (name :: walk) last (hw.cons ht hm) hn

theorem Stuck.mono {names' : List String} (h : r.Stuck path names f)
    (hs : ∀ name ∈ names, name ∈ names') : r.Stuck path names' f := by
  cases h with
  | cycle walk last hw hd hl => exact .cycle walk last (hw.mono hs) hd hl
  | missing walk last hw hn => exact .missing walk last (hw.mono hs) hn

theorem stuck_of_complete_error (hp : path.Nodup) (h : r.complete path target names = .error f) :
    r.Stuck path names f := by
  fun_induction complete r path target names with
  | case1 path target => simp at h
  | case2 path target name rest hm =>
    obtain rfl := Except.error.inj h
    have : r.Stuck path (name :: rest) (.templateCycle (path ++ [] ++ [name])) :=
      .cycle [] name (isWalk_singleton List.mem_cons_self) (by simpa using hp) (by simpa using hm)
    simpa using this
  | case3 path target name rest hm hn =>
    obtain rfl := Except.error.inj h
    exact .missing [] name (isWalk_singleton List.mem_cons_self) hn
  | case4 path target name rest hm t ht _ g hg ih =>
    obtain rfl := Except.error.inj h
    have hp' : (path ++ [name]).Nodup := List.nodup_append.mpr ⟨hp, by simp, by grind⟩
    exact ((ih hp' hg).mono fun _ => List.mem_reverse.mp).cons ht List.mem_cons_self
  | case5 path target name rest hm t ht _ resolved hr _ ih =>
    exact (ih hp h).mono fun _ => List.mem_cons_of_mem name

def Clear (r : Registry) (path : List String) (name : String) : Prop :=
  name ∉ path ∧ ∃ t m, r.template? name = some t ∧
    r.complete (path ++ [name]) t t.templates.reverse = .ok m

theorem clear_of_complete_ok (h : r.complete path target names = .ok m) :
    ∀ name ∈ names, r.Clear path name := by
  induction names generalizing target with
  | nil => simp
  | cons name rest ih =>
    rw [complete_cons] at h
    split at h
    · cases h
    · rename_i hp
      split at h
      · cases h
      · rename_i t ht
        split at h
        · cases h
        · rename_i resolved hr
          intro other ho
          rcases List.mem_cons.mp ho with rfl | ho
          · exact ⟨hp, t, resolved, ht, hr⟩
          · exact ih h other ho

theorem Clear.step (h : r.Clear path name) (hl : r.Lists name next) :
    r.Clear (path ++ [name]) next := by
  obtain ⟨_, t, m, ht, hc⟩ := h
  obtain ⟨t', ht', hn⟩ := hl
  obtain rfl : t = t' := Option.some.inj (ht.symm.trans ht')
  exact clear_of_complete_ok hc next (List.mem_reverse.mpr hn)

theorem Clear.reaches (h : r.Clear path name) (hl : ReflTransGen r.Lists name next) :
    ∃ path', path ⊆ path' ∧ r.Clear path' next := by
  induction hl with
  | refl => exact ⟨path, List.Subset.refl _, h⟩
  | tail _ hl ih =>
    obtain ⟨path', hp, hc⟩ := ih
    exact ⟨path' ++ [_], List.subset_append_of_subset_left _ hp, hc.step hl⟩

theorem Clear.acyclic (h : r.Clear path name) : ¬ TransGen r.Lists name name := by
  intro hg
  obtain ⟨next, hl, hr⟩ := TransGen.head'_iff.mp hg
  obtain ⟨path', hp, hc⟩ := (h.step hl).reaches hr
  exact hc.1 (hp (by simp))

theorem mem_pathOf : name ∈ pathOf s ↔ s.isTemplate ∧ s.name = some name := by
  unfold pathOf
  split <;> simp_all

theorem nodup_pathOf (s : Script) : (pathOf s).Nodup := by
  unfold pathOf
  split
  · cases s.name <;> simp
  · simp

theorem Reaches.clear (hr : r.Reaches s name) (h : r.applyTemplates s = .ok m) :
    ∃ path, pathOf s ⊆ path ∧ r.Clear path name := by
  obtain ⟨first, hf, hr⟩ := hr
  exact (clear_of_complete_ok h first (List.mem_reverse.mpr hf)).reaches hr

theorem completes_of_ok (h : r.applyTemplates s = .ok m) : r.Completes s where
  registered name hr := by
    obtain ⟨_, _, _, t, _, ht, _⟩ := hr.clear h
    exact ht ▸ rfl
  acyclic name hr := by
    obtain ⟨_, _, hc⟩ := hr.clear h
    exact hc.acyclic
  apart name hs hn hr := by
    obtain ⟨_, hp, hc⟩ := hr.clear h
    exact hc.1 (hp (mem_pathOf.mpr ⟨hs, hn⟩))

theorem stuck_of_error (h : r.applyTemplates s = .error f) :
    r.Stuck (pathOf s) s.templates f :=
  (stuck_of_complete_error (nodup_pathOf s) h).mono fun _ => List.mem_reverse.mp

theorem IsWalk.transGen {last : String} (h : r.IsWalk names (walk ++ [last])) (hm : last ∈ walk) :
    TransGen r.Lists last last := by
  obtain ⟨before, after, rfl⟩ := List.append_of_mem hm
  have hc : (last :: (after ++ [last])).IsChain r.Lists := by
    have := h.1
    rw [List.append_assoc, List.cons_append] at this
    exact this.right_of_append
  obtain ⟨next, rest, hn⟩ := List.exists_cons_of_ne_nil (l := after ++ [last]) (by simp)
  rw [hn, List.isChain_cons_cons] at hc
  refine TransGen.head' hc.1 (List.relationReflTransGen_of_exists_isChain_cons rest hc.2 ?_)
  simp [← hn]

theorem Completes.not_stuck (hc : r.Completes s) : ¬ r.Stuck (pathOf s) s.templates f := by
  intro h
  cases h with
  | cycle walk last hw _ hl =>
    rcases List.mem_append.mp hl with hl | hl
    · obtain ⟨hs, hn⟩ := mem_pathOf.mp hl
      exact hc.apart last hs hn hw.reaches
    · exact hc.acyclic last hw.reaches (hw.transGen hl)
  | missing walk last hw hn => simpa [hn] using hc.registered last hw.reaches

theorem ok_iff_completes : (∃ m, r.applyTemplates s = .ok m) ↔ r.Completes s := by
  constructor
  · rintro ⟨m, h⟩
    exact completes_of_ok h
  · intro hc
    cases h : r.applyTemplates s with
    | ok m => exact ⟨m, rfl⟩
    | error f => exact (hc.not_stuck (stuck_of_error h)).elim

theorem Stuck.cases (h : r.Stuck (pathOf s) s.templates f) :
    (∃ cycle, f = .templateCycle cycle ∧ r.IsCycle s cycle) ∨
      ∃ name, f = .noSuchTemplate name ∧ r.Reaches s name ∧ r.template? name = none := by
  cases h with
  | cycle walk last hw hd hl =>
    refine Or.inl ⟨_, rfl, ⟨walk, last, rfl, hw⟩, ?_, last, ?_, ?_⟩
    · rwa [List.dropLast_concat]
    · rwa [List.dropLast_concat]
    · rw [List.getLast?_concat]
  | missing walk last hw hn => exact Or.inr ⟨last, rfl, hw.reaches, hn⟩

/-- As `complete`, with scripts completed inside one another to a depth; there is no result if that
is not enough. -/
def completeWithin (r : Registry) (depth : Nat) (path : List String) (target : Script)
    (names : List String) : Option (Except Fault Script) :=
  match depth, names with
  | 0, _ => none
  | _ + 1, [] => some (.ok target)
  | depth + 1, name :: rest =>
    if name ∈ path then some (.error (.templateCycle (path ++ [name])))
    else match r.template? name with
      | none => some (.error (.noSuchTemplate name))
      | some t => match r.completeWithin depth (path ++ [name]) t t.templates.reverse with
        | none => none
        | some (.error f) => some (.error f)
        | some (.ok resolved) => r.completeWithin (depth + 1) path (target.inherit resolved) rest
termination_by (depth, names.length)

theorem completeWithin_eq (depth : Nat) (hd : r.templatesBeside path < depth) :
    r.completeWithin depth path target names = some (r.complete path target names) := by
  fun_induction complete r path target names generalizing depth with
  | case1 path target =>
    obtain ⟨depth, rfl⟩ := Nat.exists_eq_add_one.mpr (Nat.zero_lt_of_lt hd)
    rw [completeWithin]
  | case2 path target name rest hm =>
    obtain ⟨depth, rfl⟩ := Nat.exists_eq_add_one.mpr (Nat.zero_lt_of_lt hd)
    rw [completeWithin, if_pos hm]
  | case3 path target name rest hm hn =>
    obtain ⟨depth, rfl⟩ := Nat.exists_eq_add_one.mpr (Nat.zero_lt_of_lt hd)
    rw [completeWithin, if_neg hm, hn]
  | case4 path target name rest hm t ht hlt f hf ih =>
    obtain ⟨depth, rfl⟩ := Nat.exists_eq_add_one.mpr (Nat.zero_lt_of_lt hd)
    simp only [completeWithin, if_neg hm, ht, ih depth (by omega), hf]
  | case5 path target name rest hm t ht hlt resolved hr ih ih' =>
    obtain ⟨depth, rfl⟩ := Nat.exists_eq_add_one.mpr (Nat.zero_lt_of_lt hd)
    simp only [completeWithin, if_neg hm, ht, ih depth (by omega), hr, ih' (depth + 1) hd]

theorem templatesBeside_le (r : Registry) (names : List String) :
    r.templatesBeside names ≤ r.templates.size := by
  simpa [templatesBeside, Table.size, Table.names] using
    List.length_filter_le (fun n => !names.contains n) r.templates.names

/-- Completing a script by its templates goes no deeper than the number of templates and one more.
It succeeds exactly when all that the script reaches is registered and no way leads round, however
often a template is reached; and it fails only with a way round that is there, or with a template
that the script reaches and that is not registered. -/
theorem applyTemplates_iff_completes (r : Registry) (s : Script) :
    r.completeWithin (r.templates.size + 1) (pathOf s) s s.templates.reverse =
        some (r.applyTemplates s) ∧
      ((∃ m, r.applyTemplates s = .ok m) ↔ r.Completes s) ∧
      ∀ f, r.applyTemplates s = .error f →
        (∃ cycle, f = .templateCycle cycle ∧ r.IsCycle s cycle) ∨
          ∃ name, f = .noSuchTemplate name ∧ r.Reaches s name ∧ r.template? name = none :=
  ⟨completeWithin_eq _ (Nat.lt_succ_of_le (r.templatesBeside_le _)), ok_iff_completes,
    fun _ h => (stuck_of_error h).cases⟩

end Registry

end ApiScript
