import ApiScript.Fault
import ApiScript.Script.Basic

/-! # Scripts and templates by name

Scripts and templates have names of their own. A script is completed by its templates, and those by
theirs; of several templates the later ones come before the earlier ones, and the script itself
comes before all of them.
-/

namespace ApiScript

structure Registry where
  scripts : Table Script
  templates : Table Script

namespace Registry

def empty : Registry := ⟨Table.empty, Table.empty⟩

instance : Inhabited Registry := ⟨empty⟩

def script? (r : Registry) (name : String) : Option Script := r.scripts.get? name

def template? (r : Registry) (name : String) : Option Script := r.templates.get? name

def setScript (r : Registry) (name : String) (s : Script) : Registry :=
  { r with scripts := r.scripts.insert name s }

def setTemplate (r : Registry) (name : String) (s : Script) : Registry :=
  { r with templates := r.templates.insert name s }

def templatesBeside (r : Registry) (names : List String) : Nat :=
  (r.templates.names.filter fun n => !names.contains n).length

theorem mem_names_of_find? {α : Type} {name : String} {v : α} {entries : List (String × α)}
    (h : Table.find? name entries = some v) : name ∈ entries.map (·.1) := by
  induction entries with
  | nil => simp [Table.find?] at h
  | cons e rest ih =>
    obtain ⟨n, w⟩ := e
    by_cases hn : n = name
    · simp [hn]
    · simp only [Table.find?, if_neg hn] at h
      simp [ih h]

theorem length_filter_lt {names stack : List String} {name : String} (hm : name ∈ names)
    (hs : name ∉ stack) :
    (names.filter fun n => !(stack ++ [name]).contains n).length <
      (names.filter fun n => !stack.contains n).length := by
  induction names with
  | nil => simp at hm
  | cons n rest ih =>
    have hle (l : List String) : (l.filter fun n => !(stack ++ [name]).contains n).length ≤
        (l.filter fun n => !stack.contains n).length := by
      rw [← List.countP_eq_length_filter, ← List.countP_eq_length_filter]
      apply List.countP_mono_left
      intro x _ hx
      simp only [List.contains_eq_mem, List.mem_append, List.mem_singleton, Bool.not_eq_true',
        decide_eq_false_iff_not, not_or] at hx ⊢
      exact hx.1
    by_cases hn : n = name
    · subst hn
      have := hle rest
      simp only [List.filter_cons, List.contains_eq_mem, List.mem_append, List.mem_singleton, hs,
        or_true, decide_true, decide_false, Bool.not_true, Bool.not_false, Bool.false_eq_true,
        if_false, if_true, List.length_cons]
      exact Nat.lt_succ_of_le (by simpa using this)
    · have hr : name ∈ rest := by
        rcases List.mem_cons.1 hm with h | h
        · exact absurd h.symm hn
        · exact h
      have := ih hr
      by_cases hx : n ∈ stack
      · simpa [List.filter_cons, hx, hn] using this
      · simpa [List.filter_cons, hx, hn] using this

theorem templatesBeside_lt {r : Registry} {stack : List String} {name : String} {t : Script}
    (ht : r.template? name = some t) (hs : name ∉ stack) :
    r.templatesBeside (stack ++ [name]) < r.templatesBeside stack :=
  length_filter_lt (mem_names_of_find? ht) hs

/-- Completes a script by the templates of `names` in turn. The names in `path` lead to the script;
one of them that comes up again makes a cycle. -/
def complete (r : Registry) (path : List String) (target : Script) (names : List String) :
    Except Fault Script :=
  match names with
  | [] => .ok target
  | name :: rest =>
    if hp : name ∈ path then .error (.templateCycle (path ++ [name]))
    else
      match ht : r.template? name with
      | none => .error (.noSuchTemplate name)
      | some template =>
        have := templatesBeside_lt ht hp
        match complete r (path ++ [name]) template template.templates.reverse with
        | .error f => .error f
        | .ok resolved => complete r path (target.inherit resolved) rest
termination_by (r.templatesBeside path, names.length)

/-- Where the path to a script's templates begins: a template is on it itself. -/
def pathOf (s : Script) : List String := if s.isTemplate then s.name.toList else []

/-- A script with all that it inherits from its templates, and they from theirs. -/
def applyTemplates (r : Registry) (s : Script) : Except Fault Script :=
  r.complete (pathOf s) s s.templates.reverse

end Registry

end ApiScript
