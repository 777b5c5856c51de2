import ApiScript.Proofs.Inheritance.Lineage
import ApiScript.Proofs.Script.Request

/-! # The request of a completed script

Each method is a directive of its own. So a template gives its request also to a script that names
another method, and the completed script, which then names both, is refused. A script keeps its own
request when no template that it reaches names another method.
-/

namespace ApiScript

open Relation

variable {method : Method} {k url : String} {own inherited : Fields Json}

namespace Method

theorem text_notMem_mergedObjects (method : Method) : method.text ∉ Script.mergedObjects := by
  cases method <;> decide

theorem text_notMem_joinedLists (method : Method) : method.text ∉ Script.joinedLists := by
  cases method <;> decide

end Method

namespace Script

variable {s template : Script}

theorem inheritedValue_eq_or (hm : k ∉ mergedObjects) (hj : k ∉ joinedLists)
    (own inherited : Option Json) : inheritedValue k own inherited = own.or inherited := by
  cases own <;> cases inherited <;> simp [inheritedValue, mergeDirective, hm, hj]

theorem get?_inherit_eq_or (hm : k ∉ mergedObjects) (hj : k ∉ joinedLists) :
    Fields.get? k (inherited.foldl inheritDirective own) =
      (Fields.get? k own).or (Fields.get? k inherited) := by
  induction inherited generalizing own with
  | nil => simp
  | cons entry rest ih =>
    obtain ⟨n, v⟩ := entry
    rw [List.foldl_cons, ih, get?_inheritDirective, Fields.get?_cons]
    split
    · rw [inheritedValue_eq_or hm hj, Option.or_assoc, Option.some_or]
    · rfl

theorem directive?_inherit (hm : k ∉ mergedObjects) (hj : k ∉ joinedLists) :
    (s.inherit template).directive? k = (s.directive? k).or (template.directive? k) :=
  get?_inherit_eq_or hm hj

end Script

namespace Registry

variable {r : Registry} {s target m : Script} {path names : List String}

/-- What a completed script has under a directive that is neither merged nor joined: its own value,
or else that of a template which one of the names leads to. -/
theorem directive?_of_complete (h : r.complete path target names = .ok m)
    (hm : k ∉ Script.mergedObjects) (hj : k ∉ Script.joinedLists) :
    m.name = target.name ∧ ∃ inherited, m.directive? k = (target.directive? k).or inherited ∧
      ∀ value ∈ inherited, ∃ first ∈ names, ∃ name t, ReflTransGen r.Lists first name ∧
        r.template? name = some t ∧ t.directive? k = some value := by
  fun_induction complete r path target names generalizing m with
  | case1 path target =>
    obtain rfl := Except.ok.inj h
    exact ⟨rfl, none, by simp, by simp⟩
  | case2 => cases h
  | case3 => cases h
  | case4 => cases h
  | case5 path target first rest hp template ht _ resolved hres ih ih' =>
    obtain ⟨-, below, hbelow, hfrom⟩ := ih hres
    obtain ⟨hname, beside, hbeside, hrest⟩ := ih' h
    rw [Script.directive?_inherit hm hj, Option.or_assoc] at hbeside
    refine ⟨hname, (resolved.directive? k).or beside, hbeside, fun value hv => ?_⟩
    rw [hbelow, Option.or_assoc, Option.mem_def] at hv
    rcases Option.or_eq_some_iff.mp hv with hown | ⟨-, hv⟩
    · exact ⟨first, List.mem_cons_self, first, template, .refl, ht, hown⟩
    rcases Option.or_eq_some_iff.mp hv with hbelow | ⟨-, hbeside⟩
    · obtain ⟨next, hn, name, t, hreach, htemplate⟩ := hfrom value hbelow
      have hlists : r.Lists first next := ⟨template, ht, List.mem_reverse.mp hn⟩
      exact ⟨first, List.mem_cons_self, name, t, .head hlists hreach, htemplate⟩
    · obtain ⟨next, hn, htemplate⟩ := hrest value hbeside
      exact ⟨next, List.mem_cons_of_mem _ hn, htemplate⟩

theorem directive?_of_applyTemplates (h : r.applyTemplates s = .ok m)
    (hm : k ∉ Script.mergedObjects) (hj : k ∉ Script.joinedLists) :
    m.name = s.name ∧ ∃ inherited, m.directive? k = (s.directive? k).or inherited ∧
      ∀ value ∈ inherited, ∃ name t, r.Reaches s name ∧ r.template? name = some t ∧
        t.directive? k = some value := by
  obtain ⟨hn, inherited, hd, hfrom⟩ := directive?_of_complete h hm hj
  refine ⟨hn, inherited, hd, fun value hv => ?_⟩
  obtain ⟨first, hf, name, t, hreach, ht⟩ := hfrom value hv
  exact ⟨name, t, ⟨first, List.mem_reverse.mp hf, hreach⟩, ht⟩

theorem applyTemplates_single {name : String} {t : Script} (hs : s.templates = [name])
    (hp : s.isTemplate = false) (ht : r.template? name = some t) (hn : t.templates = []) :
    r.applyTemplates s = .ok (s.inherit t) := by
  have hnil : ∀ path target, r.complete path target [] = .ok target := fun _ _ => by rw [complete]
  have hbelow : r.complete ([] ++ [name]) t t.templates.reverse = .ok t := by
    rw [hn]
    exact hnil _ _
  have hpath : pathOf s = [] := by simp [pathOf, hp]
  rw [applyTemplates, hpath, hs]
  exact (complete_cons_of_ok List.not_mem_nil ht hbelow).trans (hnil _ _)

/-- A template that a script reaches names another method than the one of the script's request. -/
def RivalsRequest (r : Registry) (s : Script) (method : Method) : Prop :=
  ∃ name t, r.Reaches s name ∧ r.template? name = some t ∧
    ∃ other, other ≠ method ∧ (t.directive? other.text).isSome

theorem rivalsRequest_iff (hs : s.request = .ok (some (method, url)))
    (h : r.applyTemplates s = .ok m) :
    r.RivalsRequest s method ↔ ∃ other, other ≠ method ∧ (m.directive? other.text).isSome := by
  obtain ⟨-, honly⟩ := Script.request_eq_ok_some_iff.mp hs
  constructor
  · rintro ⟨name, t, hreach, ht, other, hne, ho⟩
    exact ⟨other, hne, covers_of_reaches h hreach ht other.text ho⟩
  · rintro ⟨other, hne, ho⟩
    obtain ⟨-, inherited, hd, hfrom⟩ := directive?_of_applyTemplates h
      other.text_notMem_mergedObjects other.text_notMem_joinedLists
    rw [hd, honly other hne, Option.none_or] at ho
    obtain ⟨value, hv⟩ := Option.isSome_iff_exists.mp ho
    obtain ⟨name, t, hreach, ht, hvalue⟩ := hfrom value hv
    exact ⟨name, t, hreach, ht, other, hne, hvalue ▸ rfl⟩

/-- A completed script has its own request under its own method, whatever templates say there. It
asks for that request just when no template that it reaches names another method; if one does, the
script is refused. -/
theorem request_of_applyTemplates (hs : s.request = .ok (some (method, url)))
    (h : r.applyTemplates s = .ok m) :
    m.directive? method.text = some (.string url) ∧
      (m.request = s.request ↔ ¬ r.RivalsRequest s method) ∧
      (r.RivalsRequest s method →
        ∃ message, m.request = .error (.invalidScript s.label message) ∧
          ((∀ (other : Method) value, m.directive? other.text = some value →
              ∃ url, value = .string url) →
            message = "a script may contain only one request method")) := by
  obtain ⟨hown, -⟩ := Script.request_eq_ok_some_iff.mp hs
  obtain ⟨hname, inherited, hd, -⟩ := directive?_of_applyTemplates h
    method.text_notMem_mergedObjects method.text_notMem_joinedLists
  rw [hown, Option.some_or] at hd
  have hlabel : m.label = s.label := by rw [Script.label, Script.label, hname]
  have hmethod : (m.directive? method.text).isSome := by
    rw [hd]
    rfl
  rw [rivalsRequest_iff hs h, ← hlabel, hs]
  refine ⟨hd, ?_, fun ⟨other, hne, ho⟩ => Script.request_of_two (Ne.symm hne) hmethod ho⟩
  constructor
  · rintro hr ⟨other, hne, ho⟩
    obtain ⟨message, he, -⟩ := Script.request_of_two (Ne.symm hne) hmethod ho
    cases hr.symm.trans he
  · intro hrivals
    refine Script.request_eq_ok_some_iff.mpr ⟨hd, fun other hne => ?_⟩
    simpa using fun ho => hrivals ⟨other, hne, ho⟩

theorem request_of_applyTemplates_same :
    let base : Script := ⟨some "b.template", [], [("GET", .string "base")]⟩
    let s : Script := ⟨none, ["b.template"], [("GET", .string "own")]⟩
    let r : Registry := ⟨Table.empty, ⟨[("b.template", base)]⟩⟩
    s.request = .ok (some (.get, "own")) ∧ r.applyTemplates s = .ok (s.inherit base) ∧
      ¬ r.RivalsRequest s .get ∧
      (s.inherit base).directive? "GET" = some (.string "own") ∧
      (s.inherit base).request = .ok (some (.get, "own")) := by
  intro base s r
  have hs : s.request = .ok (some (.get, "own")) := rfl
  have hm : r.applyTemplates s = .ok (s.inherit base) := applyTemplates_single rfl rfl rfl rfl
  obtain ⟨hd, hr, -⟩ := request_of_applyTemplates hs hm
  have hown : (s.inherit base).request = s.request := rfl
  exact ⟨hs, hm, hr.mp hown, hd, hown⟩

/-- A template that names another method takes the request away from a script. -/
theorem request_lost_to_template :
    ¬ ∀ (r : Registry) (s m : Script) (method : Method) (url : String),
      s.request = .ok (some (method, url)) → r.applyTemplates s = .ok m →
        m.request = s.request := by
  intro h
  let base : Script := ⟨some "b.template", [], [("POST", .string "base")]⟩
  let s : Script := ⟨none, ["b.template"], [("GET", .string "own")]⟩
  let r : Registry := ⟨Table.empty, ⟨[("b.template", base)]⟩⟩
  have hm : r.applyTemplates s = .ok (s.inherit base) := applyTemplates_single rfl rfl rfl rfl
  have hrefused : (s.inherit base).request = .error (.invalidScript "<anonymous>"
      "a script may contain only one request method") := rfl
  have hkept := h r s (s.inherit base) .get "own" rfl hm
  rw [hrefused] at hkept
  cases hkept

end Registry

end ApiScript
