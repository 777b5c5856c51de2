import ApiScript.Http
import ApiScript.Proofs.Expansion.Node
import ApiScript.Proofs.Fields

/-! # Values with the fields of their objects in order

Reading a text puts the fields of every object into order, and expanding a value keeps them so.
-/

namespace ApiScript

/-- At every object in a value the names stand in strictly increasing order. -/
inductive Json.Ordered : Json → Prop where
  | null : Ordered .null
  | bool (b : Bool) : Ordered (.bool b)
  | number (n : JsonNumber) : Ordered (.number n)
  | string (s : String) : Ordered (.string s)
  | array {items : List Json} : (∀ x ∈ items, Ordered x) → Ordered (.array items)
  | object {fields : Fields Json} : Fields.Ordered fields → (∀ field ∈ fields, Ordered field.2) →
      Ordered (.object fields)

namespace Json

section Fields

variable {fields : Fields Json} {name : String} {v : Json}

theorem Ordered.insert (h : (Json.object fields).Ordered) (hv : v.Ordered) :
    (Json.object (Fields.insert name v fields)).Ordered := by
  cases h with
  | object hfields hvalues =>
    refine .object (hfields.insert name v) fun field hf => ?_
    rcases Fields.mem_insert hf with rfl | hf
    · exact hv
    · exact hvalues field hf

theorem Ordered.insertAll {pairs : List (String × Json)} (h : (Json.object fields).Ordered)
    (hp : ∀ pair ∈ pairs, pair.2.Ordered) :
    (Json.object (Fields.insertAll pairs fields)).Ordered := by
  induction pairs generalizing fields with
  | nil => exact h
  | cons pair rest ih =>
    obtain ⟨hfirst, hrest⟩ := List.forall_mem_cons.mp hp
    exact ih (h.insert hfirst) hrest

theorem Ordered.ofList {pairs : List (String × Json)} (h : ∀ pair ∈ pairs, pair.2.Ordered) :
    (Json.object (Fields.ofList pairs)).Ordered :=
  Ordered.insertAll (.object .nil (List.forall_mem_nil _)) h

theorem Ordered.get? (h : (Json.object fields).Ordered) (hv : Fields.get? name fields = some v) :
    v.Ordered := by
  cases h with
  | object _ hvalues => exact hvalues _ (Fields.mem_of_get? hv)

end Fields

mutual

theorem ordered_normalise : (v : Json) → v.normalise.Ordered
  | .null => .null
  | .bool b => .bool b
  | .number n => .number n
  | .string s => .string s
  | .array items => .array (ordered_normaliseItems items)
  | .object fields => .ofList (ordered_normaliseFields fields)

theorem ordered_normaliseItems : (items : List Json) → ∀ x ∈ normaliseItems items, x.Ordered
  | [] => List.forall_mem_nil _
  | x :: xs => List.forall_mem_cons.mpr ⟨ordered_normalise x, ordered_normaliseItems xs⟩

theorem ordered_normaliseFields : (fields : List (String × Json)) →
    ∀ field ∈ normaliseFields fields, field.2.Ordered
  | [] => List.forall_mem_nil _
  | (_, x) :: xs => List.forall_mem_cons.mpr ⟨ordered_normalise x, ordered_normaliseFields xs⟩

end

/-- What is read from a text is ordered. -/
theorem ordered_of_parse? {text : String} {v : Json} (h : parse? text = some v) : v.Ordered := by
  obtain ⟨written, -, rfl⟩ := Option.map_eq_some_iff.mp h
  exact ordered_normalise written

end Json

theorem Response.ordered_of_json? {r : Response} {v : Json} (h : r.json? = some v) : v.Ordered :=
  Json.ordered_of_parse? h

namespace Expansion

variable {lookup : List Char → Option Json}

theorem ordered_text (hl : ∀ name v, lookup name = some v → v.Ordered) (s : String) :
    (text lookup s).Ordered := by
  rw [text]
  cases hn : nodeValue? lookup s.toList with
  | none => exact .string _
  | some v =>
    refine nodeValue?_rule (motive := fun _ v => v.Ordered) ?_ ?_ ?_ hn
    · intro cs r v _ hv
      exact hl _ v hv
    · intro cs r alt _ _ _
      exact .string _
    · intro cs r alt v _ _ _ hv
      exact hv

mutual

theorem ordered_value (hl : ∀ name v, lookup name = some v → v.Ordered) :
    (v : Json) → (value lookup v).Ordered
  | .null => .null
  | .bool b => .bool b
  | .number n => .number n
  | .string s => ordered_text hl s
  | .array items => .array (ordered_values hl items)
  | .object fields => .ofList (ordered_fieldValues hl fields)

theorem ordered_values (hl : ∀ name v, lookup name = some v → v.Ordered) :
    (items : List Json) → ∀ x ∈ values lookup items, x.Ordered
  | [] => List.forall_mem_nil _
  | x :: xs => List.forall_mem_cons.mpr ⟨ordered_value hl x, ordered_values hl xs⟩

theorem ordered_fieldValues (hl : ∀ name v, lookup name = some v → v.Ordered) :
    (fields : List (String × Json)) → ∀ field ∈ fieldValues lookup fields, field.2.Ordered
  | [] => List.forall_mem_nil _
  | (_, x) :: xs => List.forall_mem_cons.mpr ⟨ordered_value hl x, ordered_fieldValues hl xs⟩

end

end Expansion

namespace Environment

def Ordered (env : Environment) : Prop := ∀ name v, env.get? name = some v → v.Ordered

theorem Ordered.lookup {env : Environment} (h : env.Ordered) {name : List Char} {v : Json}
    (hv : env.lookup name = some v) : v.Ordered := by
  unfold Environment.lookup at hv
  split at hv
  · obtain ⟨c, -, rfl⟩ := Option.map_eq_some_iff.mp hv
    exact .string _
  · exact h _ v hv

/-- What a value is expanded to is ordered, in whatever order its own fields stand. -/
theorem Ordered.expandValue {env : Environment} (h : env.Ordered) (v : Json) :
    (env.expandValue v).Ordered :=
  Expansion.ordered_value (fun _ _ hv => h.lookup hv) v

end Environment

end ApiScript
