import ApiScript.Proofs.Expansion.Boundary
import Mathlib.Data.List.TakeWhile

/-! # Texts that consist of a reference

A text that consists of one reference becomes the value of the reference, where any other text is
expanded to text. The two agree but for white space: what a value leaves out of a text is the white
space around references.
-/

namespace ApiScript

/-! ## White space at the ends -/

variable {cs ds es : List Char}

theorem exists_trimBlanks (cs : List Char) : ∃ before after,
    cs = before ++ (trimBlanks cs ++ after) ∧ ∀ c ∈ before ++ after, isBlank c = true := by
  have hafter : trimBlanks cs ++ ((cs.dropWhile isBlank).reverse.takeWhile isBlank).reverse =
      cs.dropWhile isBlank := by
    rw [trimBlanks, ← List.reverse_append, List.takeWhile_append_dropWhile, List.reverse_reverse]
  refine ⟨cs.takeWhile isBlank, _, by rw [hafter, List.takeWhile_append_dropWhile], ?_⟩
  rw [List.forall_mem_append]
  refine ⟨fun c hc => List.mem_takeWhile_imp hc, fun c hc => ?_⟩
  exact List.mem_takeWhile_imp (List.mem_reverse.mp hc)

theorem trimBlanks_append (hc : ∀ c ∈ cs, isBlank c = true) (he : ∀ c ∈ es, isBlank c = true) :
    trimBlanks (cs ++ (ds ++ es)) = trimBlanks ds := by
  have he' : ∀ c ∈ es.reverse, isBlank c = true := by simpa using he
  rw [trimBlanks, trimBlanks, List.dropWhile_append_of_pos hc, List.dropWhile_append]
  split
  · rename_i hd
    rw [List.isEmpty_iff.mp hd, List.dropWhile_eq_nil_iff.mpr he]
  · rw [List.reverse_append, List.dropWhile_append_of_pos he']

theorem not_mem_of_isBlank (h : ∀ c ∈ cs, isBlank c = true) : '{' ∉ cs :=
  fun hm => absurd (h _ hm) (by decide)

namespace Expansion

open Reference

variable {lookup : List Char → Option Json} {r : Reference} {v : Json} {name : List Char}

theorem alt_infix_of_ofNode? {alt : List Char} (h : ofNode? cs = some r) (ha : r.alt = some alt) :
    alt <:+: cs :=
  (alt_infix_written ha).trans ((ofNode?_eq_some_iff.mp h).1 ▸ trimBlanks_infix cs)

theorem chars_of_ofNode? (lookup : List Char → Option Json) (h : ofNode? cs = some r) :
    ∃ before after, chars lookup cs = before ++ (ofReference lookup r ++ after) ∧
      ∀ c ∈ before ++ after, isBlank c = true ∧ c ∈ cs := by
  obtain ⟨ht, hr⟩ := ofNode?_eq_some_iff.mp h
  obtain ⟨before, after, he, hb⟩ := exists_trimBlanks cs
  have hmem : ∀ c ∈ before ++ after, c ∈ cs := by
    rw [he]
    simp only [List.mem_append]
    tauto
  refine ⟨before, after, ?_, fun c hc => ⟨hb c hc, hmem c hc⟩⟩
  rw [List.forall_mem_append] at hb
  rw [he, ht, chars_append (braceClosed_of_notMem (not_mem_of_isBlank hb.1)), chars_reference hr,
    chars_of_notMem (not_mem_of_isBlank hb.1), chars_of_notMem (not_mem_of_isBlank hb.2)]

/-- The value of a text is that of its reference, or the text of the alternative, or the value of
the alternative, which is found likewise. -/
theorem nodeValue?_rule {motive : List Char → Json → Prop}
    (name : ∀ {cs r v}, ofNode? cs = some r → lookup r.name = some v → motive cs v)
    (text : ∀ {cs r alt}, ofNode? cs = some r → lookup r.name = none → r.alt = some alt →
      motive cs (.string (String.ofList (chars lookup alt))))
    (alternative : ∀ {cs r alt v}, ofNode? cs = some r → lookup r.name = none →
      r.alt = some alt → motive alt v → motive cs v)
    (h : nodeValue? lookup cs = some v) : motive cs v := by
  induction hn : cs.length using Nat.strong_induction_on generalizing cs with
  | _ n ih =>
    subst hn
    cases ho : ofNode? cs with
    | none => cases h.symm.trans (nodeValue?_of_none ho)
    | some r =>
      rw [nodeValue?_of_some ho] at h
      cases hl : lookup r.name with
      | some w =>
        rw [hl] at h
        cases h
        exact name ho hl
      | none =>
        rw [hl] at h
        obtain ⟨alt, ha, hv⟩ := Option.map_eq_some_iff.mp h
        cases hv' : nodeValue? lookup alt with
        | none =>
          rw [hv'] at hv
          cases hv
          exact text ho hl ha
        | some w =>
          rw [hv'] at hv
          cases hv
          exact alternative ho hl ha (ih _ (length_alt_lt_of_ofNode? ho ha) hv' rfl)

theorem chars_of_nodeValue? (h : nodeValue? lookup cs = some v) : ∃ before after,
    chars lookup cs = before ++ (v.asText.toList ++ after) ∧
      ∀ c ∈ before ++ after, isBlank c = true ∧ c ∈ cs := by
  refine nodeValue?_rule (motive := fun cs v => ∃ before after,
    chars lookup cs = before ++ (v.asText.toList ++ after) ∧
      ∀ c ∈ before ++ after, isBlank c = true ∧ c ∈ cs) ?_ ?_ ?_ h
  · intro cs r v ho hl
    obtain ⟨before, after, hcs, hb⟩ := chars_of_ofNode? lookup ho
    exact ⟨before, after, by rw [hcs, ofReference, hl], hb⟩
  · intro cs r alt ho hl ha
    obtain ⟨before, after, hcs, hb⟩ := chars_of_ofNode? lookup ho
    refine ⟨before, after, ?_, hb⟩
    simp only [hcs, ofReference, hl, ha, Json.asText, String.toList_ofList]
  · rintro cs r alt v ho hl ha ⟨before', after', halt, hb'⟩
    obtain ⟨before, after, hcs, hb⟩ := chars_of_ofNode? lookup ho
    have hsub : alt ⊆ cs := (alt_infix_of_ofNode? ho ha).subset
    refine ⟨before ++ before', after' ++ after, ?_, ?_⟩
    · simp only [hcs, ofReference, hl, ha, halt, List.append_assoc]
    · simp only [List.mem_append] at hb hb' ⊢
      grind

/-! ## Chains of references -/

/-- A text consists of a reference, the alternative of which consists of a reference, and so on to a
last name; the names before it stand for nothing. White space may stand around each reference. -/
inductive Chain (lookup : List Char → Option Json) : List Char → List Char → Prop where
  | last {r : Reference} {cs : List Char} : trimBlanks cs = r.written → r.WellFormed →
      Chain lookup cs r.name
  | alternative {r : Reference} {alt cs name : List Char} : trimBlanks cs = r.written →
      r.WellFormed → lookup r.name = none → r.alt = some alt → Chain lookup alt name →
      Chain lookup cs name

theorem Chain.nodeValue?_eq (h : Chain lookup cs name) (hl : lookup name = some v) :
    nodeValue? lookup cs = some v := by
  induction h with
  | last ht hr => rw [nodeValue?_of_some (ofNode?_eq_some_iff.mpr ⟨ht, hr⟩), hl]
  | alternative ht hr hn ha _ ih =>
    rw [nodeValue?_of_some (ofNode?_eq_some_iff.mpr ⟨ht, hr⟩), hn]
    simp only [ha, Option.map_some, ih hl, Option.getD_some]

/-- A value that is no text is found at the end of a chain. -/
theorem exists_chain (h : nodeValue? lookup cs = some v) (hv : ∀ s, v ≠ .string s) :
    ∃ name, Chain lookup cs name ∧ lookup name = some v := by
  refine nodeValue?_rule (motive := fun cs v => (∀ s, v ≠ .string s) →
    ∃ name, Chain lookup cs name ∧ lookup name = some v) ?_ ?_ ?_ h hv
  · intro cs r v ho hl _
    obtain ⟨ht, hr⟩ := ofNode?_eq_some_iff.mp ho
    exact ⟨r.name, .last ht hr, hl⟩
  · intro cs r alt _ _ _ hv
    exact (hv _ rfl).elim
  · intro cs r alt v ho hl ha ih hv
    obtain ⟨ht, hr⟩ := ofNode?_eq_some_iff.mp ho
    obtain ⟨name, hc, hname⟩ := ih hv
    exact ⟨name, .alternative ht hr hl ha hc, hname⟩

end Expansion

namespace Environment

open Expansion

variable {env : Environment} {text : String} {v : Json}

theorem expandValue_string (env : Environment) (text : String) : env.expandValue (.string text) =
    (env.nodeValue? text).getD (.string (env.expand text)) := by
  rw [expandValue, value, Expansion.text, nodeValue?, expand]
  cases Expansion.nodeValue? env.lookup text.toList <;> rfl

theorem lookup_eq_some_iff (hv : ∀ s, v ≠ .string s) {name : List Char} :
    env.lookup name = some v ↔
      CodePoint.isName name = false ∧ env.get? (String.ofList name) = some v := by
  unfold lookup
  split
  · rename_i hn
    constructor
    · intro h
      obtain ⟨c, -, hc⟩ := Option.map_eq_some_iff.mp h
      exact (hv _ hc.symm).elim
    · rintro ⟨hn', -⟩
      cases hn.symm.trans hn'
  · rename_i hn
    simp [hn]

theorem expandValue_eq_iff (hv : ∀ s, v ≠ .string s) : env.expandValue (.string text) = v ↔
    ∃ name : String, isReserved name = false ∧ env.get? name = some v ∧
      Chain env.lookup text.toList name.toList := by
  have hnode : env.expandValue (.string text) = v ↔ env.nodeValue? text = some v := by
    rw [expandValue_string]
    cases env.nodeValue? text with
    | none => simpa using fun h : Json.string _ = v => hv _ h.symm
    | some w => simp
  rw [hnode]
  constructor
  · intro h
    obtain ⟨name, hc, hl⟩ := exists_chain h hv
    obtain ⟨hr, hg⟩ := (lookup_eq_some_iff hv).mp hl
    refine ⟨String.ofList name, ?_, hg, ?_⟩
    · rwa [isReserved, String.toList_ofList]
    · rwa [String.toList_ofList]
  · rintro ⟨name, hr, hg, hc⟩
    refine hc.nodeValue?_eq ((lookup_eq_some_iff hv).mpr ⟨hr, ?_⟩)
    rwa [String.ofList_toList]

/-- A text becomes a value that has the text to which it is expanded, but for white space at the
ends, and just that text if there is none in it. The value is another than this text only if the
text consists of a reference, and it is no text just if a chain of references ends in a variable
with that value. -/
theorem expandValue_agrees (env : Environment) (text : String) :
    trimBlanks (env.expandValue (.string text)).asText.toList =
      trimBlanks (env.expand text).toList ∧
    ((∀ c ∈ text.toList, isBlank c = false) →
      (env.expandValue (.string text)).asText = env.expand text) ∧
    (env.expandValue (.string text) ≠ .string (env.expand text) → isValueNode text = true) ∧
    ∀ v, (∀ s, v ≠ .string s) → (env.expandValue (.string text) = v ↔
      ∃ name : String, isReserved name = false ∧ env.get? name = some v ∧
        Chain env.lookup text.toList name.toList) := by
  have hagree : ∃ before after, (env.expand text).toList =
      before ++ ((env.expandValue (.string text)).asText.toList ++ after) ∧
        ∀ c ∈ before ++ after, isBlank c = true ∧ c ∈ text.toList := by
    rw [expandValue_string, expand, String.toList_ofList]
    cases hn : env.nodeValue? text with
    | none => exact ⟨[], [], by simp [Json.asText], by simp⟩
    | some v => exact chars_of_nodeValue? hn
  obtain ⟨before, after, he, hb⟩ := hagree
  refine ⟨?_, fun hblank => ?_, fun hne => ?_, fun v => expandValue_eq_iff⟩
  · rw [List.forall_mem_append] at hb
    rw [he, trimBlanks_append (fun c hc => (hb.1 c hc).1) (fun c hc => (hb.2 c hc).1)]
  · have hnone : before ++ after = [] := by
      refine List.eq_nil_iff_forall_not_mem.mpr fun c hc => ?_
      cases (hb c hc).1.symm.trans (hblank c (hb c hc).2)
    obtain ⟨rfl, rfl⟩ := List.append_eq_nil_iff.mp hnone
    rw [List.nil_append, List.append_nil] at he
    exact (String.toList_inj.mp he).symm
  · rw [isValueNode]
    by_contra hnode
    have hnone : env.nodeValue? text = none :=
      nodeValue?_of_none (Option.not_isSome_iff_eq_none.mp hnode)
    rw [expandValue_string, hnone] at hne
    exact hne rfl

end Environment

end ApiScript
