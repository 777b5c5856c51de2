import ApiScript.Proofs.Expansion.Segments
import ApiScript.Proofs.Plugin.Entries
import ApiScript.Proofs.Session.Reserved

/-! # Variables that are assigned at once

The variables of a script are bound one after the other, and each value is expanded among those that
are bound already. Where no value refers to one of them, this is the same as to expand all values
first and to assign them at once.
-/

namespace ApiScript

open Binding

variable {script : Script} {fields before : Fields Json}
  {env next last : Environment} {name : String}

/-- No text in the values of some fields refers to one of their names. -/
def Fields.Independent (fields : Fields Json) : Prop :=
  ∀ field ∈ fields, ∀ text ∈ field.2.texts, ∀ name ∈ names fields,
    ¬ Reference.Mentions text.toList name.toList

/-- Some names are assigned at once: each has the value to which its field was expanded before, and
every other name has the value that it had. -/
def Environment.Assigns (env : Environment) (fields : Fields Json) (next : Environment) : Prop :=
  ∀ name, next.get? name = ((Fields.get? name fields).map env.expandValue).or (env.get? name)

def Expands (env : Environment) (_ : String) (spec value : Json) : Prop :=
  env.expandValue spec = value

theorem Fields.Independent.expandValue_eq {spec : Json} (hi : fields.Independent)
    (hf : (name, spec) ∈ fields)
    (h : ∀ other, other ∉ names fields → next.get? other = env.get? other) :
    next.expandValue spec = env.expandValue spec := by
  refine Expansion.value_congr fun text ht => Environment.lookup_congr fun other hm => h other ?_
  exact fun hn => hi _ hf text ht other hn hm

namespace Binding.InTurn

theorem assigns (h : InTurn Expands before env last) (hp : before <+: fields)
    (ho : Fields.Ordered fields) (hi : fields.Independent) : env.Assigns before last := by
  intro name
  by_cases hn : name ∈ Fields.names before
  · obtain ⟨⟨_, spec⟩, hf, rfl⟩ := List.mem_map.mp hn
    obtain ⟨first, others, rfl⟩ := List.append_of_mem hf
    have hb := ho.sublist hp.sublist
    obtain ⟨seen, _, hfirst, rfl, hv⟩ := h.exists_given hb.notMem_names_after
    have hsame : seen.expandValue spec = env.expandValue spec := by
      refine hi.expandValue_eq (hp.subset hf) fun other hother => ?_
      refine hfirst.get?_of_notMem fun hm => hother ?_
      have hsub : first ⊆ fields := ((List.prefix_append first _).trans hp).subset
      exact List.map_subset _ hsub hm
    rw [hv, hb.get?_append_cons, hsame]
    rfl
  · rw [Fields.get?_eq_none_of_notMem hn, h.get?_of_notMem hn]
    rfl

end Binding.InTurn

namespace Execution

theorem finds_expanded : Finds (fun _ spec env => .ok (env.expandValue spec)) Expands
    fun _ _ _ _ => False where
  ok_iff _ _ _ _ := ⟨Except.ok.inj, congrArg Except.ok⟩
  error_iff _ _ _ _ := ⟨nofun, False.elim⟩

/-- Binding the variables of a script whose values do not refer to them is to assign all of them at
once. If a name is reserved, those with smaller names than the smallest reserved one are assigned,
and that one is told. -/
theorem bindEnv_assigns (hd : script.directive? "env" = some (.object fields))
    (ho : Fields.Ordered fields) (hi : fields.Independent) (s : Session) :
    ∃ result v, (bindEnv script).Ends s result { s with vars := v } ∧
      ((result = .ok () ∧ (∀ name ∈ Fields.names fields, Environment.isReserved name = false) ∧
          s.env.Assigns fields v.env) ∨
        ∃ name ∈ Fields.names fields, Environment.isReserved name = true ∧
          (∀ other ∈ Fields.names fields, Environment.isReserved other = true → name ≤ other) ∧
          result = .error (.reservedName name) ∧
          s.env.Assigns (fields.filter fun field => field.1 < name) v.env) := by
  rcases hrun : (bindVariables fields).run.run s.vars with ⟨result, v⟩
  have hends : (bindEnv script).Ends s (settle result) { s with vars := v } := by
    unfold bindEnv
    rw [hd]
    exact Run.ends_ofBinding.mpr (by rw [hrun]; exact ⟨rfl, rfl⟩)
  have henters := finds_expanded.enters fields s.vars
  rw [← bindVariables, hrun] at henters
  refine ⟨_, _, hends, ?_⟩
  cases henters with
  | all h =>
    refine .inl ⟨rfl, fun name hn => h.not_isReserved hn, ?_⟩
    exact h.assigns List.prefix_rfl ho hi
  | @upTo before after name spec _ _ hf h hfails =>
    subst hf
    cases hfails with
    | lacking hl => cases hl
    | reserved _ hr =>
      refine .inr ⟨name, ?_, hr, fun other ho' hr' => ?_, rfl, ?_⟩
      · exact List.mem_map_of_mem (List.mem_append_right before List.mem_cons_self)
      · refine String.not_lt.mp fun hlt => ?_
        obtain ⟨field, hm, rfl⟩ := List.mem_map.mp ho'
        have hreserved := h.not_isReserved (List.mem_map_of_mem (ho.mem_of_lt hm hlt))
        exact Bool.eq_false_iff.mp hreserved hr'
      · rw [ho.filter_lt]
        exact h.assigns (List.prefix_append _ _) ho hi

theorem bindEnv_assigns_reserved :
    let fields : Fields Json := [
      ("A", .object [("\x7bz\x7d", .array [.string "\x7by|\x7bz\x7dw\x7d"])]),
      ("U+0041", .string "\x7bz\x7d"), ("b", .null)]
    let script : Script := ⟨none, [], [("env", .object fields)]⟩
    ∃ s v, Session.start ⟨⟨[("z", .bool true)]⟩⟩ Settings.standard Plugins.standard = .ok s ∧
      Fields.Ordered fields ∧ fields.Independent ∧
      (bindEnv script).Ends s (.error (.reservedName "U+0041")) { s with vars := v } ∧
      (v.env.get? "A").map Json.render = some "\x7b\"true\":[\"truew\"]\x7d" ∧
      v.env.get? "b" = none ∧ v.env.get? "z" = some (.bool true) := by
  intro fields script
  obtain ⟨s, hs, he⟩ : ∃ s,
      Session.start ⟨⟨[("z", .bool true)]⟩⟩ Settings.standard Plugins.standard = .ok s ∧
      s.env = ⟨⟨[("z", .bool true), (Session.countVariable, Json.ofNat 0)]⟩⟩ := ⟨_, rfl, rfl⟩
  have ho : Fields.Ordered fields := by decide
  have hi : fields.Independent := by
    intro field hf text ht name hn hm
    have hout : ∀ field ∈ fields, ∀ text ∈ field.2.texts, ∀ name ∈ Fields.names fields,
        ¬ name.toList ⊆ text.toList := by decide
    exact hout field hf text ht name hn hm.subset
  obtain ⟨result, v, hends, ⟨-, hfree, -⟩ | ⟨name, hn, hr, -, rfl, hv⟩⟩ :=
    bindEnv_assigns (rfl : script.directive? "env" = some (.object fields)) ho hi s
  · exact absurd (hfree "U+0041" (by decide)) (by decide)
  have honly : ∀ name ∈ Fields.names fields, Environment.isReserved name = true →
      name = "U+0041" := by decide
  obtain rfl := honly name hn hr
  refine ⟨s, v, hs, ho, hi, hends, ?_, ?_, ?_⟩
  · rw [hv, he]
    decide +kernel
  · rw [hv, he]
    rfl
  · rw [hv, he]
    rfl

end Execution

end ApiScript
