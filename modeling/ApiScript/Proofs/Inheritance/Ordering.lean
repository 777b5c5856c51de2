import ApiScript.Proofs.Inheritance.Lineage
import ApiScript.Proofs.Json.Ordered

/-! # Scripts with all their objects in order

What a script is read from has the fields of every object in order, and so has what it is completed
to.
-/

namespace ApiScript

variable {own inherited : Fields Json} {name : String}

namespace Script

variable {s template : Script}

/-- The directives stand in order, as do the fields of every object in them. -/
def InOrder (s : Script) : Prop := (Json.object s.directives).Ordered

theorem InOrder.ordered (h : s.InOrder) : s.Ordered where
  directives := by
    cases h with
    | object hfields => exact hfields
  objects k fields hf := by
    have ho : (Json.object fields).Ordered := Json.Ordered.get? h hf
    cases ho with
    | object hfields => exact hfields

theorem ordered_of_mem_items {v x : Json} (h : v.Ordered) (hx : x ∈ items (some v)) :
    x.Ordered := by
  cases h with
  | array hitems => exact hitems x hx
  | null => cases hx
  | bool b | number n | string t =>
    obtain rfl := List.mem_singleton.mp hx
    constructor
  | object hfields hvalues =>
    obtain rfl := List.mem_singleton.mp hx
    exact .object hfields hvalues

theorem ordered_mergeDirective {v w : Json} (hv : v.Ordered) (hw : w.Ordered) :
    (mergeDirective name v w).Ordered := by
  unfold mergeDirective
  split
  · split
    · cases hv with
      | object _ hvalues => exact hw.insertAll hvalues
    · exact hv
  · split
    · refine .array fun x hx => ?_
      rcases List.mem_append.mp hx with hx | hx
      · exact ordered_of_mem_items hw hx
      · exact ordered_of_mem_items hv hx
    · exact hv

theorem ordered_inheritDirective {entry : String × Json} (h : (Json.object own).Ordered)
    (he : entry.2.Ordered) : (Json.object (inheritDirective own entry)).Ordered := by
  unfold inheritDirective
  split
  · exact h.insert he
  · rename_i v hv
    exact h.insert (ordered_mergeDirective (h.get? hv) he)

theorem ordered_foldl_inheritDirective (h : (Json.object own).Ordered)
    (hi : ∀ entry ∈ inherited, entry.2.Ordered) :
    (Json.object (inherited.foldl inheritDirective own)).Ordered := by
  induction inherited generalizing own with
  | nil => exact h
  | cons entry rest ih =>
    obtain ⟨hfirst, hrest⟩ := List.forall_mem_cons.mp hi
    exact ih (ordered_inheritDirective h hfirst) hrest

theorem InOrder.inherit (h : s.InOrder) (ht : template.InOrder) : (s.inherit template).InOrder := by
  cases ht with
  | object _ hvalues =>
    exact ordered_foldl_inheritDirective h hvalues

end Script

namespace Registry

variable {r : Registry} {s m target : Script} {path names : List String}

def InOrder (r : Registry) : Prop := ∀ name t, r.template? name = some t → t.InOrder

theorem InOrder.complete (hr : r.InOrder) (ht : target.InOrder)
    (h : r.complete path target names = .ok m) : m.InOrder := by
  fun_induction Registry.complete r path target names generalizing m with
  | case1 path target =>
    obtain rfl := Except.ok.inj h
    exact ht
  | case2 => cases h
  | case3 => cases h
  | case4 => cases h
  | case5 path target first rest hp template htemplate _ resolved hres ih ih' =>
    exact ih' (ht.inherit (ih (hr _ _ htemplate) hres)) h

theorem InOrder.applyTemplates (hr : r.InOrder) (hs : s.InOrder)
    (h : r.applyTemplates s = .ok m) : m.InOrder :=
  hr.complete hs h

end Registry

end ApiScript
