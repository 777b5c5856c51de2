import ApiScript.Expansion
import ApiScript.Proofs.Reference.CodePoint

/-! # How a text is expanded

A text is read as characters that stand for themselves and references, one after the other. What is
shown of every text is shown along this reading, with the alternatives of references read in turn.
-/

namespace ApiScript

def Reference.Begins (cs : List Char) : Prop :=
  ∃ (r : Reference) (rest : List Char), r.WellFormed ∧ cs = r.written ++ rest

namespace Expansion

open Reference

variable {lookup : List Char → Option Json} {c : Char} {cs : List Char} {r : Reference}

/-- A text is read from its beginning, and so are the alternatives of its references. -/
inductive Reading : List Char → Prop where
  | nil : Reading []
  | plain {c : Char} {cs : List Char} : ¬ Begins (c :: cs) → Reading cs → Reading (c :: cs)
  | reference {r : Reference} {rest : List Char} : r.WellFormed →
      (∀ alt, r.alt = some alt → Reading alt) → Reading rest → Reading (r.written ++ rest)

theorem begins_iff : Begins ('{' :: cs) ↔ read? cs ≠ none := by
  constructor
  · rintro ⟨r, rest, hr, h⟩ hn
    cases hn.symm.trans (read?_eq_some_iff.mpr ⟨h, hr⟩)
  · intro h
    obtain ⟨⟨r, rest⟩, hread⟩ := Option.ne_none_iff_exists'.mp h
    obtain ⟨he, hr⟩ := read?_eq_some_iff.mp hread
    exact ⟨r, rest, hr, he⟩

theorem not_begins_of_ne (h : c ≠ '{') : ¬ Begins (c :: cs) := by
  rintro ⟨r, rest, -, he⟩
  obtain ⟨inner, hw⟩ := r.written_eq_cons
  rw [hw] at he
  exact h (List.cons.inj he).1

theorem reading (cs : List Char) : Reading cs := by
  induction hn : cs.length using Nat.strong_induction_on generalizing cs with
  | _ n ih =>
    subst hn
    by_cases hb : Begins cs
    · obtain ⟨r, rest, hr, rfl⟩ := hb
      obtain ⟨inner, hw⟩ := r.written_eq_cons
      refine .reference hr (fun alt ha => ih _ ?_ alt rfl) (ih _ ?_ rest rfl)
      · simp only [written, ha, List.length_append, List.length_cons]
        omega
      · simp only [hw, List.length_append, List.length_cons]
        omega
    · cases cs with
      | nil => exact .nil
      | cons c cs => exact .plain hb (ih _ (Nat.lt_succ_self _) cs rfl)

/-! ## Expanding along the reading -/

/-- What a reference is replaced by. -/
def ofReference (lookup : List Char → Option Json) (r : Reference) : List Char :=
  match lookup r.name with
  | some v => v.asText.toList
  | none =>
    match r.alt with
    | some alt => chars lookup alt
    | none => r.written

@[simp] theorem chars_nil : chars lookup [] = [] := by rw [chars]

theorem chars_plain (h : ¬ Begins (c :: cs)) : chars lookup (c :: cs) = c :: chars lookup cs := by
  rw [chars]
  split
  · rename_i hc
    subst hc
    rw [begins_iff, not_not] at h
    split
    · rfl
    · rename_i hs
      cases h.symm.trans hs
  · rfl

theorem chars_reference (h : r.WellFormed) (rest : List Char) :
    chars lookup (r.written ++ rest) = ofReference lookup r ++ chars lookup rest := by
  obtain ⟨inner, hw⟩ := r.written_eq_cons
  have hread : read? (inner ++ rest) = some (r, rest) :=
    read?_eq_some_iff.mpr ⟨by rw [hw, List.cons_append], h⟩
  rw [hw, List.cons_append, chars, if_pos rfl]
  split
  · rename_i hn
    cases hn.symm.trans hread
  · rename_i hs
    cases hs.symm.trans hread
    unfold ofReference
    congr 1
    cases lookup r.name with
    | some v => rfl
    | none =>
      dsimp only
      split <;> simp_all

theorem chars_of_notMem (h : '{' ∉ cs) : chars lookup cs = cs := by
  induction cs with
  | nil => exact chars_nil
  | cons c cs ih =>
    rw [List.mem_cons, not_or] at h
    rw [chars_plain (not_begins_of_ne (Ne.symm h.1)), ih h.2]

theorem nodeValue?_of_none (h : ofNode? cs = none) : nodeValue? lookup cs = none := by
  rw [nodeValue?]
  split
  · rfl
  · rename_i hs
    cases h.symm.trans hs

theorem nodeValue?_of_some (h : ofNode? cs = some r) : nodeValue? lookup cs =
    match lookup r.name with
    | some v => some v
    | none => r.alt.map fun alt =>
      (nodeValue? lookup alt).getD (.string (String.ofList (chars lookup alt))) := by
  rw [nodeValue?]
  split
  · rename_i hn
    cases hn.symm.trans h
  · rename_i hs
    cases hs.symm.trans h
    cases lookup r.name with
    | some v => rfl
    | none =>
      dsimp only
      split
      · rename_i ha
        rw [ha]
        rfl
      · rename_i alt ha
        rw [ha, Option.map_some]
        cases nodeValue? lookup alt <;> rfl

end Expansion

namespace Environment

theorem expand_of_notMem {s : String} (env : Environment) (h : '{' ∉ s.toList) :
    env.expand s = s := by
  rw [expand, Expansion.chars_of_notMem h, String.ofList_toList]

theorem expand_written {env : Environment} {r : Reference} {v : Json} (h : r.WellFormed)
    (hl : env.lookup r.name = some v) : env.expand (String.ofList r.written) = v.asText := by
  rw [expand, String.toList_ofList, ← List.append_nil (Reference.written _),
    Expansion.chars_reference h, Expansion.ofReference, hl, Expansion.chars_nil, List.append_nil,
    String.ofList_toList]

/-- The name of a code point stands for its character, whatever is bound. -/
theorem lookup_of_names {name : List Char} {c : Char} (h : CodePoint.Names name c)
    (env : Environment) : env.lookup name = some (.string (String.ofList [c])) := by
  rw [lookup, if_pos h.isName, CodePoint.char?_eq_some_iff.mpr h, Option.map_some]

end Environment

end ApiScript
