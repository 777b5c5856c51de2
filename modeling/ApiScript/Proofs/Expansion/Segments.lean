import ApiScript.Proofs.Expansion.Basic

/-! # The pieces of an expanded text

A text falls into literal pieces and values of variables, and where it does depends on which
variables are bound and not on their values. What a value contains is never looked at, so a text
and a JSON value are expanded alike wherever the names written in them stand for the same.
-/

namespace ApiScript

/-- A piece of an expanded text. -/
inductive Segment where
  | literal (cs : List Char)
  | value (name : String)

namespace Segment

def chars (env : Environment) : Segment → List Char
  | literal cs => cs
  | value name =>
    match env.get? name with
    | some v => v.asText.toList
    | none => []

def ofName? (bound : String → Bool) (name : List Char) : Option Segment :=
  if CodePoint.isName name then (CodePoint.char? name).map fun c => literal [c]
  else if bound (String.ofList name) then some (value (String.ofList name))
  else none

end Segment

namespace Expansion

open Reference

variable {bound : String → Bool} {cs : List Char} {env : Environment} {segments : List Segment}

/-- The pieces into which a text falls when some variables are bound. -/
inductive Pieces (bound : String → Bool) : List Char → List Segment → Prop where
  | nil : Pieces bound [] []
  | plain {c : Char} {cs : List Char} {segments : List Segment} : ¬ Begins (c :: cs) →
      Pieces bound cs segments → Pieces bound (c :: cs) (.literal [c] :: segments)
  | known {r : Reference} {rest : List Char} {piece : Segment} {segments : List Segment} :
      r.WellFormed → Segment.ofName? bound r.name = some piece → Pieces bound rest segments →
      Pieces bound (r.written ++ rest) (piece :: segments)
  | alternative {r : Reference} {alt rest : List Char} {inner segments : List Segment} :
      r.WellFormed → Segment.ofName? bound r.name = none → r.alt = some alt →
      Pieces bound alt inner → Pieces bound rest segments →
      Pieces bound (r.written ++ rest) (inner ++ segments)
  | unknown {r : Reference} {rest : List Char} {segments : List Segment} :
      r.WellFormed → Segment.ofName? bound r.name = none → r.alt = none →
      Pieces bound rest segments →
      Pieces bound (r.written ++ rest) (.literal r.written :: segments)

theorem exists_pieces (bound : String → Bool) (cs : List Char) :
    ∃ segments, Pieces bound cs segments := by
  induction reading cs with
  | nil => exact ⟨_, .nil⟩
  | plain hb _ ih =>
    obtain ⟨segments, h⟩ := ih
    exact ⟨_, .plain hb h⟩
  | @reference r rest hr _ _ iha ih =>
    obtain ⟨segments, h⟩ := ih
    cases hs : Segment.ofName? bound r.name with
    | some piece => exact ⟨_, .known hr hs h⟩
    | none =>
      cases ha : r.alt with
      | none => exact ⟨_, .unknown hr hs ha h⟩
      | some alt =>
        obtain ⟨inner, hi⟩ := iha alt ha
        exact ⟨_, .alternative hr hs ha hi h⟩

theorem chars_ofName? (env : Environment) (name : List Char) :
    (Segment.ofName? env.isBound name).map (Segment.chars env) =
      (env.lookup name).map fun v => v.asText.toList := by
  unfold Segment.ofName? Environment.lookup
  split
  · cases CodePoint.char? name with
    | none => rfl
    | some c => simp [Segment.chars, Json.asText]
  · have hb : env.isBound (String.ofList name) = (env.get? (String.ofList name)).isSome := rfl
    cases hg : env.get? (String.ofList name) with
    | none => simp [hb, hg]
    | some v => simp [hb, hg, Segment.chars]

theorem lookup_of_ofName?_eq_some {name : List Char} {piece : Segment}
    (h : Segment.ofName? env.isBound name = some piece) :
    ∃ v, env.lookup name = some v ∧ v.asText.toList = piece.chars env := by
  have hc := chars_ofName? env name
  rw [h, Option.map_some] at hc
  exact Option.map_eq_some_iff.mp hc.symm

theorem lookup_of_ofName?_eq_none {name : List Char}
    (h : Segment.ofName? env.isBound name = none) : env.lookup name = none := by
  have hc := chars_ofName? env name
  rw [h, Option.map_none] at hc
  exact Option.map_eq_none_iff.mp hc.symm

/-- Whatever the values of the variables are, a text is expanded to the pieces into which it
falls. -/
theorem Pieces.chars_eq (h : Pieces env.isBound cs segments) :
    chars env.lookup cs = segments.flatMap (Segment.chars env) := by
  induction h with
  | nil => simp
  | plain hb _ ih => simp [chars_plain hb, Segment.chars, ih]
  | known hr hs _ ih =>
    obtain ⟨v, hv, hc⟩ := lookup_of_ofName?_eq_some hs
    rw [chars_reference hr, ofReference, hv, List.flatMap_cons, ih]
    simp only [hc]
  | alternative hr hs ha _ _ iha ih =>
    rw [chars_reference hr, ofReference, lookup_of_ofName?_eq_none hs, List.flatMap_append, ih]
    simp only [ha, iha]
  | unknown hr hs ha _ ih =>
    rw [chars_reference hr, ofReference, lookup_of_ofName?_eq_none hs, List.flatMap_cons, ih]
    simp only [ha, Segment.chars]

/-! ## The names that are looked up -/

theorem eq_of_ofName?_eq_value {written : List Char} {name : String}
    (h : Segment.ofName? bound written = some (.value name)) :
    bound name = true ∧ Environment.isReserved name = false ∧ name.toList = written := by
  unfold Segment.ofName? at h
  split at h
  · cases hc : CodePoint.char? written <;> simp [hc] at h
  · rename_i hn
    split at h
    · rename_i hb
      cases h
      rw [Environment.isReserved, String.toList_ofList]
      exact ⟨hb, Bool.eq_false_iff.mpr hn, rfl⟩
    · cases h

theorem Pieces.mentions {name : String} (h : Pieces bound cs segments)
    (hm : .value name ∈ segments) :
    bound name = true ∧ Environment.isReserved name = false ∧ Mentions cs name.toList := by
  have hmono : ∀ {cs ds : List Char}, cs <:+: ds →
      bound name = true ∧ Environment.isReserved name = false ∧ Mentions cs name.toList →
      bound name = true ∧ Environment.isReserved name = false ∧ Mentions ds name.toList :=
    fun hi => And.imp_right (And.imp_right fun h => h.mono hi)
  induction h with
  | nil => cases hm
  | plain _ _ ih => exact hmono (List.suffix_cons _ _).isInfix (ih (by simpa using hm))
  | known hr hs _ ih =>
    rcases List.mem_cons.mp hm with rfl | hm
    · obtain ⟨hb, hn, he⟩ := eq_of_ofName?_eq_value hs
      exact hmono (List.prefix_append _ _).isInfix ⟨hb, hn, he ▸ mentions_written hr⟩
    · exact hmono (List.suffix_append _ _).isInfix (ih hm)
  | alternative _ _ ha _ _ iha ih =>
    rcases List.mem_append.mp hm with hm | hm
    · exact hmono ((alt_infix_written ha).trans (List.prefix_append _ _).isInfix) (iha hm)
    · exact hmono (List.suffix_append _ _).isInfix (ih hm)
  | unknown _ _ _ _ ih => exact hmono (List.suffix_append _ _).isInfix (ih (by simpa using hm))

section Congruence

variable {lookup lookup' : List Char → Option Json}

theorem chars_congr (h : ∀ name, Mentions cs name → lookup name = lookup' name) :
    chars lookup cs = chars lookup' cs := by
  induction reading cs with
  | nil => simp
  | plain hb _ ih =>
    rw [chars_plain hb, chars_plain hb,
      ih fun name hm => h name (hm.mono (List.suffix_cons _ _).isInfix)]
  | @reference r rest hr _ _ iha ih =>
    have hw : r.written <:+: r.written ++ rest := (List.prefix_append _ _).isInfix
    have hrest : rest <:+: r.written ++ rest := (List.suffix_append _ _).isInfix
    rw [chars_reference hr, chars_reference hr, ih fun name hm => h name (hm.mono hrest)]
    congr 1
    unfold ofReference
    rw [h r.name ((mentions_written hr).mono hw)]
    cases lookup' r.name with
    | some v => rfl
    | none =>
      cases ha : r.alt with
      | none => rfl
      | some alt =>
        have halt : alt <:+: r.written ++ rest := (alt_infix_written ha).trans hw
        exact iha alt ha fun name hm => h name (hm.mono halt)

theorem nodeValue?_congr (h : ∀ name, Mentions cs name → lookup name = lookup' name) :
    nodeValue? lookup cs = nodeValue? lookup' cs := by
  induction hn : cs.length using Nat.strong_induction_on generalizing cs with
  | _ n ih =>
    subst hn
    cases ho : ofNode? cs with
    | none => rw [nodeValue?_of_none ho, nodeValue?_of_none ho]
    | some r =>
      obtain ⟨ht, hr⟩ := ofNode?_eq_some_iff.mp ho
      have hw : r.written <:+: cs := ht ▸ trimBlanks_infix cs
      rw [nodeValue?_of_some ho, nodeValue?_of_some ho, h r.name ((mentions_written hr).mono hw)]
      cases lookup' r.name with
      | some v => rfl
      | none =>
        cases ha : r.alt with
        | none => rfl
        | some alt =>
          have hm : ∀ name, Mentions alt name → lookup name = lookup' name :=
            fun name hm => h name (hm.mono ((alt_infix_written ha).trans hw))
          have hv := ih _ (length_alt_lt_of_ofNode? ho ha) hm rfl
          simp only [Option.map_some, hv, chars_congr hm]

theorem text_congr {s : String} (h : ∀ name, Mentions s.toList name → lookup name = lookup' name) :
    text lookup s = text lookup' s := by
  rw [text, text, nodeValue?_congr h, chars_congr h]

end Congruence

end Expansion

namespace Json

mutual

/-- The texts in a value: its strings, and the names of fields. -/
def texts : Json → List String
  | .string s => [s]
  | .array items => itemTexts items
  | .object fields => fieldTexts fields
  | _ => []

def itemTexts : List Json → List String
  | [] => []
  | x :: xs => texts x ++ itemTexts xs

def fieldTexts : List (String × Json) → List String
  | [] => []
  | (n, x) :: xs => n :: texts x ++ fieldTexts xs

end

end Json

namespace Expansion

variable {lookup lookup' : List Char → Option Json}

mutual

theorem value_congr : ∀ {v : Json}, (∀ s ∈ v.texts, ∀ name, Reference.Mentions s.toList name →
    lookup name = lookup' name) → value lookup v = value lookup' v
  | .string s, h => by
    rw [value, value]
    exact text_congr (h s (by simp [Json.texts]))
  | .array items, h => by
    rw [value, value, values_congr (by simpa [Json.texts] using h)]
  | .object fields, h => by
    rw [value, value, fieldValues_congr (by simpa [Json.texts] using h)]
  | .null, _ | .bool _, _ | .number _, _ => by simp [value]

theorem values_congr : ∀ {items : List Json}, (∀ s ∈ Json.itemTexts items, ∀ name,
    Reference.Mentions s.toList name → lookup name = lookup' name) →
    values lookup items = values lookup' items
  | [], _ => by rw [values, values]
  | x :: xs, h => by
    rw [Json.itemTexts, List.forall_mem_append] at h
    rw [values, values, value_congr h.1, values_congr h.2]

theorem fieldValues_congr : ∀ {fields : List (String × Json)}, (∀ s ∈ Json.fieldTexts fields,
    ∀ name, Reference.Mentions s.toList name → lookup name = lookup' name) →
    fieldValues lookup fields = fieldValues lookup' fields
  | [], _ => by rw [fieldValues, fieldValues]
  | (n, x) :: xs, h => by
    rw [Json.fieldTexts, List.forall_mem_append, List.forall_mem_cons] at h
    rw [fieldValues, fieldValues, chars_congr h.1.1, value_congr h.1.2, fieldValues_congr h.2]

end

end Expansion

namespace Environment

open Reference

theorem lookup_congr {a b : Environment} {cs : List Char}
    (h : ∀ name : String, Mentions cs name.toList → a.get? name = b.get? name) :
    ∀ name, Mentions cs name → a.lookup name = b.lookup name := by
  intro name hm
  unfold lookup
  split
  · rfl
  · exact h _ (by rwa [String.toList_ofList])

/-- A text falls into pieces that the names of the bound variables alone determine, each of which is
literal, a character that its code point names, or the value of a variable that is written in the
text. Expanding it puts together the literal pieces and the texts of the values, whatever these
are. So two environments that agree on the names written in a text, or in the texts of a value,
expand it alike. -/
theorem expand_eq_pieces (text : String) (v : Json) (bound : String → Bool) :
    (∃ segments, Expansion.Pieces bound text.toList segments ∧
      (∀ name, .value name ∈ segments →
        bound name = true ∧ isReserved name = false ∧ Mentions text.toList name.toList) ∧
      ∀ env : Environment, env.isBound = bound →
        (env.expand text).toList = segments.flatMap (Segment.chars env)) ∧
    ∀ a b : Environment,
      ((∀ name : String, Mentions text.toList name.toList → a.get? name = b.get? name) →
        a.expand text = b.expand text) ∧
      ((∀ s ∈ v.texts, ∀ name : String, Mentions s.toList name.toList → a.get? name = b.get? name) →
        a.expandValue v = b.expandValue v) := by
  obtain ⟨segments, hp⟩ := Expansion.exists_pieces bound text.toList
  refine ⟨⟨segments, hp, fun name hm => hp.mentions hm, ?_⟩, fun a b => ⟨fun h => ?_, fun h => ?_⟩⟩
  · rintro env rfl
    rw [expand, String.toList_ofList, hp.chars_eq]
  · rw [expand, expand, Expansion.chars_congr (lookup_congr h)]
  · exact Expansion.value_congr fun s hs => lookup_congr (h s hs)

theorem expand_eq_pieces_braces :
    let text := "\x7ba|\x7bb\x7d\x7d\x7bU+007B\x7d"
    let a : Environment := ⟨⟨[("a", .string "\x7bb\x7d")]⟩⟩
    let b : Environment := ⟨⟨[("a", .string "\x7bb\x7d"), ("c", .null)]⟩⟩
    (∃ segments, Expansion.Pieces a.isBound text.toList segments ∧
      (a.expand text).toList = segments.flatMap (Segment.chars a)) ∧
      a.expand text = "\x7bb\x7d\x7b" ∧ a.expand text = b.expand text ∧
      a.expandValue (.string text) = b.expandValue (.string text) := by
  intro text a b
  have hget : ∀ name : String, Mentions text.toList name.toList → a.get? name = b.get? name := by
    intro name hm
    have hc : name ≠ "c" := by
      rintro rfl
      exact absurd (hm.subset (by decide : 'c' ∈ "c".toList)) (by decide)
    simp [a, b, get?, Table.get?, Table.find?, hc.symm]
  obtain ⟨⟨segments, hp, -, hsegments⟩, hagree⟩ :=
    expand_eq_pieces text (.string text) a.isBound
  obtain ⟨htext, hvalue⟩ := hagree a b
  refine ⟨⟨segments, hp, hsegments a rfl⟩, by decide +kernel, htext hget, hvalue fun s hs => ?_⟩
  cases List.mem_singleton.mp hs
  exact hget

end Environment

end ApiScript
