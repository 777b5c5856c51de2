import ApiScript.Proofs.Json.Ordered
import ApiScript.Proofs.Number.Binary64
import Mathlib.Data.Option.Basic

/-! # Equality of values

Two values are equal when their scalars are and they have the same parts at the same places. Where
a value has parts, a step leads to one of them and a path to a part of a part.
-/

namespace ApiScript.Json

/-- Equal values: objects have equal values under the same names, lists equal items at the same
positions. An integer is never equal to a number with a fraction or an exponent. -/
inductive Equals : Json → Json → Prop where
  | null : Equals .null .null
  | bool (b : Bool) : Equals (.bool b) (.bool b)
  | int (n : Int) : Equals (.number (.int n)) (.number (.int n))
  | float {x y : FiniteNumber} : x.1.value = y.1.value →
      Equals (.number (.float x)) (.number (.float y))
  | string (s : String) : Equals (.string s) (.string s)
  | array {xs ys : List Json} : xs.length = ys.length →
      (∀ (i : Nat) x y, xs[i]? = some x → ys[i]? = some y → Equals x y) →
      Equals (.array xs) (.array ys)
  | object {xs ys : Fields Json} : (∀ name, Fields.contains name xs = Fields.contains name ys) →
      (∀ name x y, Fields.get? name xs = some x → Fields.get? name ys = some y → Equals x y) →
      Equals (.object xs) (.object ys)

/-- Two objects or two lists, which differ at a part or in the number of parts if they do. -/
inductive Alike : Json → Json → Prop where
  | objects (xs ys : Fields Json) : Alike (.object xs) (.object ys)
  | lists (xs ys : List Json) : Alike (.array xs) (.array ys)

variable {x y : Json}

theorem same_iff_of_not_alike (h : ¬ Alike x y) : same x y = true ↔ x.Equals y := by
  constructor
  · intro hs
    rw [same.eq_def] at hs
    split at hs
    · exact .null
    · cases beq_iff_eq.mp hs
      exact .bool _
    · rename_i m n
      rw [JsonNumber.same.eq_def] at hs
      split at hs
      · cases beq_iff_eq.mp hs
        exact .int _
      · exact .float (Binary64.same_iff.mp hs)
      · cases hs
    · cases beq_iff_eq.mp hs
      exact .string _
    · exact (h (.lists _ _)).elim
    · exact (h (.objects _ _)).elim
    · cases hs
  · intro he
    cases he with
    | null => rfl
    | bool b => exact beq_self_eq_true b
    | int n => exact beq_self_eq_true n
    | float hv => exact Binary64.same_iff.mpr hv
    | string s => exact beq_self_eq_true s
    | array => exact (h (.lists _ _)).elim
    | object => exact (h (.objects _ _)).elim

/-! ## Equality of the data -/

theorem equals_array_cons_iff {xs ys : List Json} :
    (Json.array (x :: xs)).Equals (.array (y :: ys)) ↔
      x.Equals y ∧ (Json.array xs).Equals (.array ys) := by
  constructor
  · intro h
    cases h with
    | array hl hi =>
      exact ⟨hi 0 x y rfl rfl, .array (Nat.succ.inj hl) fun i => hi (i + 1)⟩
  · rintro ⟨hxy, h⟩
    cases h with
    | array hl hi =>
      refine .array (congrArg Nat.succ hl) fun i v w hv hw => ?_
      cases i with
      | zero =>
        cases hv
        cases hw
        exact hxy
      | succ i => exact hi i v w hv hw

theorem sameItems_iff {xs ys : List Json}
    (h : ∀ x ∈ xs, ∀ y ∈ ys, (same x y = true ↔ x.Equals y)) :
    sameItems xs ys = true ↔ (Json.array xs).Equals (.array ys) := by
  induction xs generalizing ys with
  | nil =>
    cases ys with
    | nil => exact iff_of_true rfl (.array rfl fun _ _ _ hx => nomatch hx)
    | cons y ys =>
      refine iff_of_false Bool.false_ne_true fun he => ?_
      cases he with
      | array hl => cases hl
  | cons x xs ih =>
    cases ys with
    | nil =>
      refine iff_of_false Bool.false_ne_true fun he => ?_
      cases he with
      | array hl => cases hl
    | cons y ys =>
      have hrest : ∀ x ∈ xs, ∀ y ∈ ys, (same x y = true ↔ x.Equals y) := fun x hx y hy =>
        h x (List.mem_cons_of_mem _ hx) y (List.mem_cons_of_mem _ hy)
      rw [sameItems, Bool.and_eq_true, h x List.mem_cons_self y List.mem_cons_self, ih hrest,
        equals_array_cons_iff]

theorem equals_object_cons_iff {m n : String} {xs ys : Fields Json}
    (hx : Fields.Ordered ((m, x) :: xs)) (hy : Fields.Ordered ((n, y) :: ys)) :
    (Json.object ((m, x) :: xs)).Equals (.object ((n, y) :: ys)) ↔
      m = n ∧ x.Equals y ∧ (Json.object xs).Equals (.object ys) := by
  have hxm : Fields.get? m xs = none :=
    Fields.get?_eq_none_of_notMem (List.nodup_cons.mp hx.nodup).1
  have hyn : Fields.get? n ys = none :=
    Fields.get?_eq_none_of_notMem (List.nodup_cons.mp hy.nodup).1
  constructor
  · intro h
    cases h with
    | object hn hv =>
      have hmn : m = n := by
        rcases hy.eq_or_lt_of_contains ((hn m).symm.trans Fields.contains_cons_self) with rfl | hnm
        · rfl
        rcases hx.eq_or_lt_of_contains ((hn n).trans Fields.contains_cons_self) with rfl | hmn
        · rfl
        exact (String.lt_asymm hnm hmn).elim
      subst hmn
      refine ⟨rfl, hv m x y (if_pos rfl) (if_pos rfl), .object (fun name => ?_) fun name v w => ?_⟩
      · by_cases he : m = name
        · subst he
          rw [Fields.contains, Fields.contains, hxm, hyn]
        · simpa [Fields.contains, Fields.get?_cons, he] using hn name
      · intro hxs hys
        have he : m ≠ name := by
          rintro rfl
          cases hxm.symm.trans hxs
        exact hv name v w ((if_neg he).trans hxs) ((if_neg he).trans hys)
  · rintro ⟨rfl, hxy, h⟩
    cases h with
    | object hn hv =>
      refine .object (fun name => ?_) fun name v w hxs hys => ?_
      · have hc := hn name
        rw [Fields.contains, Fields.contains] at hc ⊢
        rw [Fields.get?_cons, Fields.get?_cons]
        split
        · rfl
        · exact hc
      · rw [Fields.get?_cons] at hxs hys
        split at hxs
        · rw [if_pos ‹_›] at hys
          cases hxs
          cases hys
          exact hxy
        · rw [if_neg ‹_›] at hys
          exact hv name v w hxs hys

theorem sameFields_iff {xs ys : Fields Json} (hx : Fields.Ordered xs) (hy : Fields.Ordered ys)
    (h : ∀ p ∈ xs, ∀ q ∈ ys, (same p.2 q.2 = true ↔ p.2.Equals q.2)) :
    sameFields xs ys = true ↔ (Json.object xs).Equals (.object ys) := by
  induction xs generalizing ys with
  | nil =>
    cases ys with
    | nil => exact iff_of_true rfl (.object (fun _ => rfl) nofun)
    | cons q ys =>
      refine iff_of_false Bool.false_ne_true fun he => ?_
      cases he with
      | object hn => cases (hn q.1).trans Fields.contains_cons_self
  | cons p xs ih =>
    cases ys with
    | nil =>
      refine iff_of_false Bool.false_ne_true fun he => ?_
      cases he with
      | object hn => cases (hn p.1).symm.trans Fields.contains_cons_self
    | cons q ys =>
      have hrest : ∀ p ∈ xs, ∀ q ∈ ys, (same p.2 q.2 = true ↔ p.2.Equals q.2) := fun p hp q hq =>
        h p (List.mem_cons_of_mem _ hp) q (List.mem_cons_of_mem _ hq)
      rw [sameFields, Bool.and_eq_true, Bool.and_eq_true, beq_iff_eq,
        h p List.mem_cons_self q List.mem_cons_self,
        ih (List.pairwise_cons.mp hx).2 (List.pairwise_cons.mp hy).2 hrest,
        equals_object_cons_iff hx hy, and_assoc]

mutual

theorem same_self : ∀ v : Json, same v v = true
  | .null => rfl
  | .bool b => beq_self_eq_true b
  | .number (.int n) => beq_self_eq_true n
  | .number (.float _) => Binary64.same_iff.mpr rfl
  | .string s => beq_self_eq_true s
  | .array items => sameItems_self items
  | .object fields => sameFields_self fields

theorem sameItems_self : ∀ items : List Json, sameItems items items = true
  | [] => rfl
  | x :: xs => by rw [sameItems, same_self x, sameItems_self xs, Bool.and_self]

theorem sameFields_self : ∀ fields : List (String × Json), sameFields fields fields = true
  | [] => rfl
  | (n, x) :: xs => by
    rw [sameFields, same_self x, sameFields_self xs, beq_self_eq_true, Bool.and_self, Bool.and_self]

end

/-- Equality of the data is equality of values, where the fields of objects stand in order. -/
theorem Ordered.same_iff (hx : x.Ordered) (hy : y.Ordered) : same x y = true ↔ x.Equals y := by
  induction hx generalizing y with
  | array _ ih =>
    cases hy with
    | array hys => exact sameItems_iff fun x hx y hy => ih x hx (hys y hy)
    | _ => exact same_iff_of_not_alike (by rintro ⟨⟩)
  | object hfields _ ih =>
    cases hy with
    | object hfields' hys =>
      exact sameFields_iff hfields hfields' fun p hp q hq => ih p hp (hys q hq)
    | _ => exact same_iff_of_not_alike (by rintro ⟨⟩)
  | _ => exact same_iff_of_not_alike (by rintro ⟨⟩)

/-! ## Parts -/

inductive Step where
  | key (name : String)
  | index (i : Nat)

def part? : Step → Json → Option Json
  | .key name, .object fields => Fields.get? name fields
  | .index i, .array items => items[i]?
  | _, _ => none

/-- What a path leads to from a value; from nothing every path leads to nothing. -/
def along? : List Step → Option Json → Option Json
  | [], v => v
  | s :: p, v => along? p (v.bind (part? s))

@[simp] theorem along?_none (p : List Step) : along? p none = none := by
  induction p with
  | nil => rfl
  | cons s p ih => exact ih

theorem rel_item {xs ys : List Json} {i : Nat} (hl : xs.length = ys.length)
    (h : ∀ x y, xs[i]? = some x → ys[i]? = some y → Equals x y) :
    Option.Rel Equals (part? (.index i) (.array xs)) (part? (.index i) (.array ys)) := by
  change Option.Rel Equals xs[i]? ys[i]?
  by_cases hx : i < xs.length
  · have hy : i < ys.length := hl ▸ hx
    have he := h _ _ (List.getElem?_eq_getElem hx) (List.getElem?_eq_getElem hy)
    rw [List.getElem?_eq_getElem hx, List.getElem?_eq_getElem hy]
    exact .some he
  · have hy : ¬ i < ys.length := hl ▸ hx
    rw [List.getElem?_eq_none (not_lt.mp hx), List.getElem?_eq_none (not_lt.mp hy)]
    exact .none

theorem rel_field {xs ys : Fields Json} {name : String}
    (hn : Fields.contains name xs = Fields.contains name ys)
    (h : ∀ x y, Fields.get? name xs = some x → Fields.get? name ys = some y → Equals x y) :
    Option.Rel Equals (part? (.key name) (.object xs)) (part? (.key name) (.object ys)) := by
  change Option.Rel Equals (Fields.get? name xs) (Fields.get? name ys)
  rw [Fields.contains, Fields.contains] at hn
  cases hx : Fields.get? name xs <;> cases hy : Fields.get? name ys
  · exact .none
  · simp [hx, hy] at hn
  · simp [hx, hy] at hn
  · exact .some (h _ _ hx hy)

theorem Equals.part? (h : x.Equals y) (s : Step) :
    Option.Rel Equals (Json.part? s x) (Json.part? s y) := by
  cases h with
  | array hl hi =>
    cases s with
    | key => exact .none
    | index i => exact rel_item hl (hi i)
  | object hn hv =>
    cases s with
    | index => exact .none
    | key name => exact rel_field (hn name) (hv name)
  | _ => cases s <;> exact .none

theorem rel_along? {a b : Option Json} (h : Option.Rel Equals a b) (p : List Step) :
    Option.Rel Equals (along? p a) (along? p b) := by
  induction p generalizing a b with
  | nil => exact h
  | cons s p ih =>
    cases h with
    | none => exact ih .none
    | some h => exact ih (h.part? s)

end ApiScript.Json
