import ApiScript.Proofs.Fields
import ApiScript.Proofs.Inheritance.Reachability
import ApiScript.Script.Reading

/-! # Inheriting is writing in turn

The directives that a script has when it is completed are those of all that it inherits from,
written one after the other: a template after the templates that it lists, and the script last. Of
two values of a directive the later one stays. The entries of merged objects are written one by one,
and the items of joined lists follow one another.
-/

namespace ApiScript

open Script

variable {k name : String} {own inherited : Fields Json} {maps above : List (Fields Json)}

/-! ## Inheriting once -/

namespace Script

def inheritedValue (k : String) : Option Json → Option Json → Option Json
  | none, inherited => inherited
  | some own, none => some own
  | some own, some inherited => some (mergeDirective k own inherited)

theorem get?_inheritDirective (own : Fields Json) (name : String) (value : Json) :
    Fields.get? k (inheritDirective own (name, value)) =
      if name = k then inheritedValue k (Fields.get? k own) (some value)
      else Fields.get? k own := by
  unfold inheritDirective
  dsimp only
  split <;> rename_i h <;> rw [Fields.get?_insert] <;> split <;> rename_i he
  · subst he
    rw [h]
    rfl
  · rfl
  · subst he
    rw [h]
    rfl
  · rfl

theorem get?_inherit (h : (Fields.names inherited).Nodup) (own : Fields Json) :
    Fields.get? k (inherited.foldl inheritDirective own) =
      inheritedValue k (Fields.get? k own) (Fields.get? k inherited) := by
  induction inherited generalizing own with
  | nil => cases h : Fields.get? k own <;> simp [h, inheritedValue]
  | cons entry rest ih =>
    obtain ⟨n, v⟩ := entry
    obtain ⟨hn, hr⟩ := List.nodup_cons.mp h
    rw [List.foldl_cons, ih hr, get?_inheritDirective, Fields.get?_cons]
    split
    · rename_i he
      rw [← he, Fields.get?_eq_none_of_notMem hn]
      cases Fields.get? n own <;> rfl
    · rfl

/-- A script has all directives that another one has, be it with other values. -/
def Covers (s t : Script) : Prop := ∀ k, (t.directive? k).isSome → (s.directive? k).isSome

theorem Covers.trans {s t u : Script} (h : s.Covers t) (h' : t.Covers u) : s.Covers u :=
  fun k hk => h k (h' k hk)

theorem isSome_inherit {s template : Script} {k : String}
    (h : (s.directive? k).isSome ∨ (template.directive? k).isSome) :
    ((s.inherit template).directive? k).isSome := by
  obtain ⟨_, _, own⟩ := s
  obtain ⟨_, _, inherited⟩ := template
  change (Fields.get? k own).isSome ∨ (Fields.get? k inherited).isSome at h
  change (Fields.get? k (inherited.foldl inheritDirective own)).isSome
  induction inherited generalizing own with
  | nil => exact h.resolve_right nofun
  | cons entry rest ih =>
    obtain ⟨n, v⟩ := entry
    refine ih _ ?_
    rw [Fields.get?_cons] at h
    rw [get?_inheritDirective]
    split at h
    · rename_i hn
      rw [if_pos hn]
      left
      cases Fields.get? k own <;> rfl
    · rename_i hn
      rwa [if_neg hn]

theorem ordered_inherit (h : Fields.Ordered own) (inherited : Fields Json) :
    Fields.Ordered (inherited.foldl inheritDirective own) := by
  induction inherited generalizing own with
  | nil => exact h
  | cons entry rest ih =>
    refine ih ?_
    unfold inheritDirective
    split
    · exact h.insert _ _
    · exact h.insert _ _

end Script

structure Script.Ordered (s : Script) : Prop where
  directives : Fields.Ordered s.directives
  objects : ∀ k fields, s.directive? k = some (.object fields) → Fields.Ordered fields

theorem Script.ordered_of_entries {s : Script} (h : Fields.Ordered s.directives)
    (ho : ∀ e ∈ s.directives, ∀ fields, e.2 = .object fields → Fields.Ordered fields) :
    s.Ordered :=
  ⟨h, fun k fields hf => ho (k, .object fields) (Fields.mem_of_get? hf) fields rfl⟩

/-! ## Writing in turn -/

/-- What the last of some maps that has something says. -/
def lastOf {α : Type} (find : Fields Json → Option α) (maps : List (Fields Json)) : Option α :=
  maps.reverse.findSome? find

def inner? (k key : String) (map : Fields Json) : Option Json :=
  match Fields.get? k map with
  | some (.object fields) => Fields.get? key fields
  | _ => none

def AllObjects (k : String) (maps : List (Fields Json)) : Prop :=
  ∀ map ∈ maps, ∀ value, Fields.get? k map = some value → ∃ fields, value = .object fields

def AllOrdered (k : String) (maps : List (Fields Json)) : Prop :=
  ∀ map ∈ maps, ∀ fields, Fields.get? k map = some (.object fields) → Fields.Ordered fields

/-- A value of a directive holds the entries of the values in some maps, written in turn; there is
none if the maps have none. -/
def HoldsEntries (k : String) (maps : List (Fields Json)) : Option Json → Prop
  | none => ∀ map ∈ maps, Fields.get? k map = none
  | some value => (∃ map ∈ maps, (Fields.get? k map).isSome) ∧ ∃ fields, value = .object fields ∧
      Fields.Ordered fields ∧ ∀ key, Fields.get? key fields = lastOf (inner? k key) maps

/-- Directives are what comes of writing some maps one after the other. -/
structure Writes (maps : List (Fields Json)) (directives : Fields Json) : Prop where
  ordered : Fields.Ordered directives
  values : ∀ k, k ∉ mergedObjects → k ∉ joinedLists →
    Fields.get? k directives = lastOf (Fields.get? k) maps
  entries : ∀ k ∈ mergedObjects, AllObjects k maps → AllOrdered k maps →
    HoldsEntries k maps (Fields.get? k directives)
  items : ∀ k ∈ joinedLists,
    items (Fields.get? k directives) = maps.flatMap fun map => items (Fields.get? k map)

theorem lastOf_append {α : Type} (find : Fields Json → Option α) (a b : List (Fields Json)) :
    lastOf find (a ++ b) = (lastOf find b).or (lastOf find a) := by
  rw [lastOf, List.reverse_append, List.findSome?_append]
  rfl

theorem lastOf_eq_none {α : Type} {find : Fields Json → Option α}
    (h : ∀ map ∈ maps, find map = none) : lastOf find maps = none :=
  List.findSome?_eq_none_iff.mpr fun map hm => h map (List.mem_reverse.mp hm)

theorem lastOf_inner?_eq_none {key : String} (h : ∀ map ∈ maps, Fields.get? k map = none) :
    lastOf (inner? k key) maps = none :=
  lastOf_eq_none fun map hm => by rw [inner?, h map hm]

theorem not_joined_of_merged (h : k ∈ mergedObjects) : k ∉ joinedLists := by
  revert h
  simp only [mergedObjects, joinedLists, List.mem_cons, List.not_mem_nil, or_false]
  rintro (rfl | rfl) <;> decide

theorem writes_single (h : Fields.Ordered own) : Writes [own] own where
  ordered := h
  values k _ _ := by simp [lastOf]
  entries k _ ho hd := by
    cases hk : Fields.get? k own with
    | none => simpa [HoldsEntries] using hk
    | some value =>
      obtain ⟨fields, rfl⟩ := ho own List.mem_cons_self value hk
      refine ⟨⟨own, List.mem_cons_self, by rw [hk]; rfl⟩, fields, rfl, ?_, fun key => ?_⟩
      · exact hd own List.mem_cons_self fields hk
      · simp [lastOf, inner?, hk]
  items k _ := by simp

section Append

variable {a b : List (Fields Json)}

theorem HoldsEntries.append {value value' : Option Json} (hk : k ∈ mergedObjects)
    (ha : HoldsEntries k a value) (hb : HoldsEntries k b value') :
    HoldsEntries k (a ++ b) (inheritedValue k value' value) := by
  cases value' with
  | none =>
    cases value with
    | none =>
      intro map hm
      exact (List.mem_append.mp hm).elim (ha map) (hb map)
    | some value =>
      obtain ⟨⟨map, hm, hs⟩, fields, rfl, hf, he⟩ := ha
      refine ⟨⟨map, List.mem_append_left _ hm, hs⟩, fields, rfl, hf, fun key => ?_⟩
      rw [lastOf_append, lastOf_inner?_eq_none hb, Option.none_or, he]
  | some value' =>
    obtain ⟨⟨map, hm, hs⟩, fields', rfl, hf', he'⟩ := hb
    have hm := List.mem_append_right a hm
    cases value with
    | none =>
      refine ⟨⟨map, hm, hs⟩, fields', rfl, hf', fun key => ?_⟩
      rw [lastOf_append, lastOf_inner?_eq_none ha, Option.or_none, he']
    | some value =>
      obtain ⟨-, fields, rfl, hf, he⟩ := ha
      refine ⟨⟨map, hm, hs⟩, Fields.insertAll fields' fields, ?_, hf.insertAll _, fun key => ?_⟩
      · rw [mergeDirective, if_pos hk]
      · rw [Fields.get?_insertAll hf'.nodup, lastOf_append, he, he']

theorem Writes.append (ha : Writes a inherited) (hb : Writes b own) :
    Writes (a ++ b) (inherited.foldl inheritDirective own) where
  ordered := ordered_inherit hb.ordered inherited
  values k ho hl := by
    rw [get?_inherit ha.ordered.nodup, lastOf_append, ← ha.values k ho hl, ← hb.values k ho hl]
    cases Fields.get? k own with
    | none => rfl
    | some value =>
      cases Fields.get? k inherited with
      | none => rfl
      | some value' => simp [inheritedValue, mergeDirective, ho, hl]
  entries k hk ho hd := by
    rw [get?_inherit ha.ordered.nodup]
    refine HoldsEntries.append hk (ha.entries k hk ?_ ?_) (hb.entries k hk ?_ ?_)
    · exact fun map hm => ho map (List.mem_append_left _ hm)
    · exact fun map hm => hd map (List.mem_append_left _ hm)
    · exact fun map hm => ho map (List.mem_append_right _ hm)
    · exact fun map hm => hd map (List.mem_append_right _ hm)
  items k hk := by
    have ho : k ∉ mergedObjects := fun ho => not_joined_of_merged ho hk
    rw [get?_inherit ha.ordered.nodup, List.flatMap_append, ← ha.items k hk, ← hb.items k hk]
    cases Fields.get? k own with
    | none => exact (List.append_nil _).symm
    | some value =>
      cases Fields.get? k inherited with
      | none => rfl
      | some value' => simp [inheritedValue, mergeDirective, ho, hk, Script.items]

end Append

/-! ## Lineages -/

namespace Registry

variable {r : Registry} {s target m : Script} {path names : List String}

/-- The directives of all that some names of templates stand for, in the order in which they are
written: those of each name after those of the names that its template lists. -/
inductive Lineage (r : Registry) : List String → List (Fields Json) → Prop where
  | nil : Lineage r [] []
  | cons {name : String} {t : Script} {rest : List String} {a b : List (Fields Json)} :
      r.template? name = some t → Lineage r t.templates a → Lineage r rest b →
      Lineage r (name :: rest) (a ++ [t.directives] ++ b)

theorem Lineage.append {more : List String} {a b : List (Fields Json)} (h : r.Lineage names a)
    (h' : r.Lineage more b) : r.Lineage (names ++ more) (a ++ b) := by
  induction h with
  | nil => exact h'
  | @cons name t rest a c ht hl _ _ ih =>
    rw [List.cons_append, List.append_assoc]
    exact .cons ht hl ih

theorem Lineage.unique {maps' : List (Fields Json)} (h : r.Lineage names maps)
    (h' : r.Lineage names maps') : maps = maps' := by
  induction h generalizing maps' with
  | nil =>
    cases h'
    rfl
  | cons ht _ _ ih ih' =>
    cases h' with
    | cons ht' hl' hr' =>
      obtain rfl := Option.some.inj (ht.symm.trans ht')
      rw [ih hl', ih' hr']

def Ordered (r : Registry) : Prop := ∀ name t, r.template? name = some t → t.Ordered

theorem Lineage.ordered (hr : r.Ordered) (h : r.Lineage names maps) :
    ∀ map ∈ maps, ∃ t : Script, t.Ordered ∧ map = t.directives := by
  induction h with
  | nil => exact fun _ h => nomatch h
  | @cons name t rest a b ht _ _ ih ih' =>
    intro map hm
    rcases List.mem_append.mp hm with hm | hm
    · rcases List.mem_append.mp hm with hm | hm
      · exact ih map hm
      · exact ⟨t, hr name t ht, List.mem_singleton.mp hm⟩
    · exact ih' map hm

theorem allOrdered (h : ∀ map ∈ maps, ∃ t : Script, t.Ordered ∧ map = t.directives) (k : String) :
    AllOrdered k maps := by
  intro map hm fields hf
  obtain ⟨t, ht, rfl⟩ := h map hm
  exact ht.objects k fields hf

/-- Completing a script writes before its directives those of the templates that remain, which come
in reverse. -/
theorem writes_of_complete (hr : r.Ordered) (h : r.complete path target names = .ok m)
    (hw : Writes maps target.directives) :
    ∃ above, r.Lineage names.reverse above ∧ Writes (above ++ maps) m.directives ∧
      m.name = target.name ∧ m.templates = target.templates := by
  fun_induction complete r path target names generalizing maps m with
  | case1 path target =>
    obtain rfl := Except.ok.inj h
    exact ⟨[], .nil, hw, rfl, rfl⟩
  | case2 => cases h
  | case3 => cases h
  | case4 => cases h
  | case5 path target name rest hm t ht _ resolved hres ih ih' =>
    obtain ⟨below, hl, hb, -⟩ := ih hres (writes_single (hr name t ht).directives)
    obtain ⟨above, ha, hw, hn⟩ := ih' h (hb.append hw)
    refine ⟨above ++ (below ++ [t.directives]), ?_, by simpa using hw, hn⟩
    rw [List.reverse_cons]
    rw [List.reverse_reverse] at hl
    simpa using ha.append (.cons ht hl .nil)

theorem complete_cons_of_ok {t resolved target : Script} {rest : List String} (hn : name ∉ path)
    (ht : r.template? name = some t)
    (hc : r.complete (path ++ [name]) t t.templates.reverse = .ok resolved) :
    r.complete path target (name :: rest) = r.complete path (target.inherit resolved) rest := by
  rw [complete_cons, if_neg hn, ht]
  simp only [hc]

theorem covers_of_complete (h : r.complete path target names = .ok m) : m.Covers target ∧
    ∀ first ∈ names, ∀ name, Relation.ReflTransGen r.Lists first name →
      ∀ t, r.template? name = some t → m.Covers t := by
  fun_induction complete r path target names generalizing m with
  | case1 path target =>
    obtain rfl := Except.ok.inj h
    exact ⟨fun _ hk => hk, fun _ hf => absurd hf List.not_mem_nil⟩
  | case2 => cases h
  | case3 => cases h
  | case4 => cases h
  | case5 path target first rest hm template ht _ resolved hres ih ih' =>
    obtain ⟨htemplate, hbelow⟩ := ih hres
    obtain ⟨htarget, hrest⟩ := ih' h
    have hresolved : m.Covers resolved := htarget.trans fun k hk => isSome_inherit (.inr hk)
    refine ⟨htarget.trans fun k hk => isSome_inherit (.inl hk), ?_⟩
    refine List.forall_mem_cons.mpr ⟨fun name hreach t hn => hresolved.trans ?_, hrest⟩
    cases hreach.cases_head with
    | inl he =>
      subst he
      cases ht.symm.trans hn
      exact htemplate
    | inr hstep =>
      obtain ⟨next, ⟨t', ht', hnext⟩, hreach⟩ := hstep
      cases ht.symm.trans ht'
      exact hbelow next (List.mem_reverse.mpr hnext) name hreach t hn

theorem covers_of_reaches (h : r.applyTemplates s = .ok m) (hr : r.Reaches s name) {t : Script}
    (ht : r.template? name = some t) : m.Covers t := by
  obtain ⟨first, hf, hreach⟩ := hr
  exact (covers_of_complete h).2 first (List.mem_reverse.mpr hf) name hreach t ht

/-- A script that is completed has the directives of its lineage and its own, written one after the
other, in whatever way the templates list each other: the last value of each directive; of an object
that is merged, the last value of each entry; and of a list that is joined, all items. -/
theorem applyTemplates_writes (hr : r.Ordered) (hs : s.Ordered) (h : r.applyTemplates s = .ok m) :
    ∃ above, (∀ maps, r.Lineage s.templates maps ↔ maps = above) ∧
      let maps := above ++ [s.directives]
      (∀ k, k ∉ mergedObjects → k ∉ joinedLists →
        m.directive? k = lastOf (Fields.get? k) maps) ∧
      (∀ k ∈ mergedObjects, AllObjects k maps →
        ((m.directive? k).isSome ↔ ∃ map ∈ maps, (Fields.get? k map).isSome) ∧
        ∀ value, m.directive? k = some value → ∃ fields, value = .object fields ∧
          ∀ key, Fields.get? key fields = lastOf (inner? k key) maps) ∧
      (∀ k ∈ joinedLists, m.list k = maps.flatMap fun map => items (Fields.get? k map)) ∧
      m.name = s.name ∧ m.templates = s.templates := by
  obtain ⟨above, hl, hw, hn, ht⟩ := writes_of_complete hr h (writes_single hs.directives)
  rw [List.reverse_reverse] at hl
  have ho : ∀ map ∈ above ++ [s.directives], ∃ t : Script, t.Ordered ∧ map = t.directives := by
    intro map hm
    rcases List.mem_append.mp hm with hm | hm
    · exact hl.ordered hr map hm
    · exact ⟨s, hs, List.mem_singleton.mp hm⟩
  refine ⟨above, fun maps => ⟨fun h => h.unique hl, fun h => h ▸ hl⟩, hw.values, ?_, hw.items, hn,
    ht⟩
  intro k hk hall
  have he := hw.entries k hk hall (allOrdered ho k)
  unfold directive?
  cases hv : Fields.get? k m.directives with
  | none =>
    rw [hv] at he
    refine ⟨⟨nofun, ?_⟩, nofun⟩
    rintro ⟨map, hm, hsome⟩
    rw [he map hm] at hsome
    exact hsome
  | some value =>
    rw [hv] at he
    obtain ⟨hex, fields, hf, -, hkey⟩ := he
    refine ⟨⟨fun _ => hex, fun _ => rfl⟩, fun value' h' => ?_⟩
    cases h'
    exact ⟨fields, hf, hkey⟩

theorem applyTemplates_writes_twice :
    let base : Script := ⟨some "b.template", [],
      [("assert", .string "p"), ("env", .object [("x", .bool true), ("y", .bool true)])]⟩
    let other : Script := ⟨some "a.template", ["b.template"],
      [("env", .object [("y", .bool false)])]⟩
    let s : Script := ⟨none, ["a.template", "b.template"], [("assert", .array [.string "q"])]⟩
    let r : Registry := ⟨Table.empty, ⟨[("a.template", other), ("b.template", base)]⟩⟩
    ∃ m above, r.Ordered ∧ s.Ordered ∧ r.applyTemplates s = .ok m ∧
      r.Lineage s.templates above ∧ above.length = 3 ∧
      m.list "assert" = [.string "p", .string "p", .string "q"] ∧
      m.list "assert" = (above ++ [s.directives]).flatMap fun map =>
        items (Fields.get? "assert" map) := by
  intro base other s r
  have hxy : Fields.Ordered [("x", Json.bool true), ("y", .bool true)] := by decide
  have hy : Fields.Ordered [("y", Json.bool false)] := by decide
  have hb : base.Ordered := Script.ordered_of_entries (by decide) (by simpa [base] using hxy)
  have ho : other.Ordered := Script.ordered_of_entries (by decide) (by simpa [other] using hy)
  have hs : s.Ordered := Script.ordered_of_entries (by decide) (by simp [s])
  have hr : r.Ordered := by
    intro name t ht
    simp only [r, template?, Table.get?, Table.find?] at ht
    grind
  have hnil : ∀ path target, r.complete path target [] = .ok target := fun _ _ => by rw [complete]
  have hbase : ∀ path target rest, "b.template" ∉ path →
      r.complete path target ("b.template" :: rest) =
        r.complete path (target.inherit base) rest :=
    fun _ _ _ hp => complete_cons_of_ok hp rfl (hnil _ _)
  have hother : r.complete ["a.template"] other ["b.template"] = .ok (other.inherit base) :=
    (hbase _ _ _ (by decide)).trans (hnil _ _)
  have hm : r.applyTemplates s = .ok ((s.inherit base).inherit (other.inherit base)) := by
    calc r.applyTemplates s
      _ = r.complete [] s ["b.template", "a.template"] := rfl
      _ = r.complete [] (s.inherit base) ["a.template"] := hbase _ _ _ (by decide)
      _ = r.complete [] ((s.inherit base).inherit (other.inherit base)) [] :=
        complete_cons_of_ok (by decide) rfl hother
      _ = _ := hnil _ _
  have ha : ((s.inherit base).inherit (other.inherit base)).list "assert" =
      [.string "p", .string "p", .string "q"] := by
    rfl
  obtain ⟨above, hl, -, -, hj, -⟩ := applyTemplates_writes hr hs hm
  have htb : r.template? "b.template" = some base := rfl
  have hto : r.template? "a.template" = some other := rfl
  have hone := Lineage.cons hto (Lineage.cons htb .nil .nil) (.cons htb .nil .nil)
  obtain rfl := (hl _).mp hone
  exact ⟨_, _, hr, hs, hm, hone, rfl, ha, hj "assert" (by decide)⟩

end Registry

end ApiScript
