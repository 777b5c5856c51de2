import ApiScript.Proofs.Inheritance.Lineage
import ApiScript.Proofs.Session.Judging
import ApiScript.Proofs.Session.Reserved

/-! # Assertions in another order

A script with its assertions in another order comes to judge the same call in the same session, if
no plug-in looks at the order of the assertions in the script that it is told. The plug-ins that are
always there look at its name only.
-/

namespace ApiScript

namespace Script

/-- Two scripts that differ at most in the order of their assertions. -/
structure Reorders (s s' : Script) : Prop where
  name : s'.name = s.name
  templates : s'.templates = s.templates
  directive? : ∀ k, k ≠ "assert" → s'.directive? k = s.directive? k
  list : (s'.list "assert").Perm (s.list "assert")

namespace Reorders

variable {s s' template : Script} {k : String}

theorem label (h : s.Reorders s') : s'.label = s.label := by
  rw [Script.label, Script.label, h.name]

theorem request (h : s.Reorders s') : s'.request = s.request := by
  have hamong : ∀ methods found, s'.requestAmong found methods = s.requestAmong found methods := by
    intro methods
    induction methods with
    | nil => exact fun _ => rfl
    | cons method rest ih =>
      intro found
      have hd : s'.directive? method.text = s.directive? method.text :=
        h.directive? _ (by cases method <;> decide)
      simp only [requestAmong, hd, h.label, ih]
  exact hamong _ _

/-! ### Completing -/

theorem items_inheritedValue (own inherited : Option Json) :
    items (inheritedValue "assert" own inherited) = items inherited ++ items own := by
  cases own with
  | none => exact (List.append_nil _).symm
  | some own =>
    cases inherited with
    | none => rfl
    | some inherited => rfl

theorem inheritDirective (h : s.Reorders s') (entry : String × Json) :
    Reorders { s with directives := Script.inheritDirective s.directives entry }
      { s' with directives := Script.inheritDirective s'.directives entry } := by
  obtain ⟨name, value⟩ := entry
  refine ⟨h.name, h.templates, fun k hk => ?_, ?_⟩
  · have hd : Fields.get? k s'.directives = Fields.get? k s.directives := h.directive? k hk
    change Fields.get? k _ = Fields.get? k _
    rw [get?_inheritDirective, get?_inheritDirective, hd]
  · have hl : (items (Fields.get? "assert" s'.directives)).Perm
        (items (Fields.get? "assert" s.directives)) := h.list
    change (items (Fields.get? "assert" _)).Perm (items (Fields.get? "assert" _))
    rw [get?_inheritDirective, get?_inheritDirective]
    split
    · rw [items_inheritedValue, items_inheritedValue]
      exact hl.append_left _
    · exact hl

theorem inherit (h : s.Reorders s') (template : Script) :
    (s.inherit template).Reorders (s'.inherit template) := by
  obtain ⟨_, _, inherited⟩ := template
  induction inherited generalizing s s' with
  | nil => exact h
  | cons entry rest ih => exact ih (h.inheritDirective entry)

end Reorders

end Script

namespace Registry

variable {r : Registry} {s s' m target target' : Script} {path names : List String}

end Registry

/-! ## What plug-ins see of a script -/

def CallContext.withScript (call : CallContext) (m : Script) : CallContext :=
  { call with script := m }

variable {call : CallContext} {m : Script}

namespace Execution

variable {host : Host} {script script' : Script} {s t u v w : Session} {m' : Script}

theorem Exchanges.plugins {result : Except Fault CallContext} (h : Exchanges host m u result v) :
    v.plugins = u.plugins := by
  cases h with
  | unanswered | answered => exact Session.sending_plugins
  | _ => rfl

end Execution

end ApiScript
