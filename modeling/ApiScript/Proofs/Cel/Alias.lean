import ApiScript.Cel.Engine
import Mathlib.Tactic.Common

/-! # Second names in the text of an expression

A second name is replaced wherever it stands and no word reaches into it. The first name is longer,
so a text stays as it is just when no second name stands in it. What is replaced does not depend on
quotes around a text, which belong to no name.
-/

namespace ApiScript.Cel

variable {old new cs : List Char} {word : Bool} {skipped : Nat} {quote c : Char}

def endsInWord (word : Bool) (cs : List Char) : Bool := (cs.getLast?.map isWordChar).getD word

/-- A text stands in another one, and no word reaches into it. -/
def StandsAtWord (old : List Char) (word : Bool) (cs : List Char) : Prop :=
  ∃ before after, cs = before ++ old ++ after ∧ endsInWord word before = false

@[simp] theorem endsInWord_cons (cs : List Char) :
    endsInWord word (c :: cs) = endsInWord (isWordChar c) cs := by
  cases cs with
  | nil => rfl
  | cons d cs =>
    rw [endsInWord, endsInWord, List.getLast?_cons_cons, List.getLast?_cons]
    rfl

theorem not_standsAtWord_nil (ho : old ≠ []) : ¬ StandsAtWord old word [] := by
  rintro ⟨before, after, h, -⟩
  have hn := (List.append_eq_nil_iff.mp h.symm).1
  exact ho (List.append_eq_nil_iff.mp hn).2

theorem standsAtWord_cons : StandsAtWord old word (c :: cs) ↔
    (word = false ∧ old <+: c :: cs) ∨ StandsAtWord old (isWordChar c) cs := by
  constructor
  · rintro ⟨before, after, h, hw⟩
    cases before with
    | nil => exact .inl ⟨hw, after, h.symm⟩
    | cons b before =>
      obtain ⟨rfl, rfl⟩ := List.cons.inj h
      rw [endsInWord_cons] at hw
      exact .inr ⟨before, after, rfl, hw⟩
  · rintro (⟨rfl, after, h⟩ | ⟨before, after, rfl, hw⟩)
    · exact ⟨[], after, h.symm, rfl⟩
    · exact ⟨c :: before, after, rfl, by rwa [endsInWord_cons]⟩

/-! ## One name -/

theorem length_le_replaceAtWord (hl : old.length < new.length) :
    cs.length ≤ (replaceAtWord old new skipped word cs).length + skipped := by
  fun_induction replaceAtWord old new skipped word cs with
  | case1 => simp
  | case2 => simp only [List.length_cons]; omega
  | case3 => simp only [List.length_cons, List.length_append]; omega
  | case4 => simp only [List.length_cons]; omega

theorem replaceAtWord_of_not_standsAtWord (h : ¬ StandsAtWord old word cs) :
    replaceAtWord old new 0 word cs = cs := by
  induction cs generalizing word with
  | nil => rfl
  | cons c cs ih =>
    rw [standsAtWord_cons, not_or, not_and] at h
    have hp : (!word && old.isPrefixOf (c :: cs)) = false := by
      cases word with
      | true => rfl
      | false => simpa [← Bool.not_eq_true] using h.1 rfl
    rw [replaceAtWord, hp, ih h.2]
    rfl

theorem length_lt_replaceAtWord (hl : old.length < new.length) (h : StandsAtWord old word cs)
    (ho : old ≠ []) : cs.length < (replaceAtWord old new 0 word cs).length := by
  have hpos : 0 < old.length := List.length_pos_iff.mpr ho
  induction cs generalizing word with
  | nil => exact absurd h (not_standsAtWord_nil ho)
  | cons c cs ih =>
    rw [replaceAtWord]
    split
    · have hr : cs.length ≤
          (replaceAtWord old new (old.length - 1) (isWordChar c) cs).length + (old.length - 1) :=
        length_le_replaceAtWord hl
      simp only [List.length_cons, List.length_append]
      omega
    · rename_i hp
      have hcs : StandsAtWord old (isWordChar c) cs := by
        refine (standsAtWord_cons.mp h).resolve_left ?_
        rintro ⟨rfl, hold⟩
        exact hp (by simpa using hold)
      simpa using ih hcs

theorem replaceAtWord_eq_self_iff (hl : old.length < new.length) (ho : old ≠ []) :
    replaceAtWord old new 0 word cs = cs ↔ ¬ StandsAtWord old word cs := by
  constructor
  · intro h hs
    have hlt := length_lt_replaceAtWord hl hs ho
    rw [h] at hlt
    exact Nat.lt_irrefl _ hlt
  · exact replaceAtWord_of_not_standsAtWord

theorem mem_of_mem_replaceAtWord (h : c ∈ replaceAtWord old new skipped word cs) :
    c ∈ new ∨ c ∈ cs := by
  fun_induction replaceAtWord old new skipped word cs with
  | case1 => exact .inr h
  | case2 _ _ _ _ ih => exact (ih h).imp_right (List.mem_cons_of_mem _)
  | case3 _ _ _ _ ih =>
    rcases List.mem_append.mp h with h | h
    · exact .inl h
    · exact (ih h).imp_right (List.mem_cons_of_mem _)
  | case4 _ _ _ _ ih =>
    rcases List.mem_cons.mp h with rfl | h
    · exact .inr List.mem_cons_self
    · exact (ih h).imp_right (List.mem_cons_of_mem _)

theorem isPrefixOf_append_quote (hq : quote ∉ old) :
    old.isPrefixOf (cs ++ [quote]) = old.isPrefixOf cs := by
  rw [Bool.eq_iff_iff, List.isPrefixOf_iff_prefix, List.isPrefixOf_iff_prefix,
    List.prefix_concat_iff]
  refine or_iff_right fun h => hq ?_
  rw [h]
  exact List.mem_append_right _ List.mem_cons_self

theorem replaceAtWord_append_quote (hq : quote ∉ old) (ho : old ≠ []) (hs : skipped ≤ cs.length) :
    replaceAtWord old new skipped word (cs ++ [quote]) =
      replaceAtWord old new skipped word cs ++ [quote] := by
  induction cs generalizing skipped word with
  | nil =>
    obtain rfl : skipped = 0 := Nat.le_zero.mp hs
    have hp : old.isPrefixOf ([] ++ [quote]) = false := by
      rw [isPrefixOf_append_quote hq]
      simpa [← Bool.not_eq_true] using ho
    rw [List.nil_append] at hp ⊢
    rw [replaceAtWord, replaceAtWord, hp, Bool.and_false]
    rfl
  | cons c cs ih =>
    cases skipped with
    | succ skipped =>
      rw [List.cons_append, replaceAtWord, replaceAtWord]
      exact ih (Nat.le_of_succ_le_succ hs)
    | zero =>
      rw [List.cons_append, replaceAtWord, replaceAtWord, ← List.cons_append,
        isPrefixOf_append_quote hq]
      split
      · rename_i hp
        rw [Bool.and_eq_true, List.isPrefixOf_iff_prefix] at hp
        have hl := hp.2.length_le
        rw [List.length_cons] at hl
        rw [ih (by omega), List.append_assoc]
      · rw [ih (Nat.zero_le _), List.cons_append]

theorem replaceAtWord_quoted (hq : quote ∉ old) (ho : old ≠ []) (hw : isWordChar quote = false) :
    replaceAtWord old new 0 word (quote :: cs ++ [quote]) =
      quote :: replaceAtWord old new 0 false cs ++ [quote] := by
  have hp : old.isPrefixOf (quote :: (cs ++ [quote])) = false := by
    cases old with
    | nil => exact absurd rfl ho
    | cons d old =>
      have hd : (d == quote) = false := by
        rw [beq_eq_false_iff_ne]
        rintro rfl
        exact hq List.mem_cons_self
      rw [List.isPrefixOf, hd, Bool.false_and]
  rw [List.cons_append, replaceAtWord, hp, Bool.and_false, hw,
    replaceAtWord_append_quote hq ho (Nat.zero_le _)]
  rfl

/-! ## All names -/

def replaceNames (names : List (String × String)) (cs : List Char) : List Char :=
  names.foldl (fun cs a => replaceAtWord a.1.toList a.2.toList 0 false cs) cs

variable {names : List (String × String)} {a : String × String}

theorem withoutAliases_eq (text : String) :
    withoutAliases text = String.ofList (replaceNames aliases text.toList) := rfl

/-- A name that is replaced by a longer one, has no quotes and is not empty. -/
structure IsAlias (a : String × String) : Prop where
  length_lt : a.1.toList.length < a.2.toList.length
  ne_nil : a.1.toList ≠ []
  unquoted : '"' ∉ a.1.toList

theorem isAlias_of_mem (h : a ∈ aliases) : IsAlias a := by
  simp only [aliases, List.mem_cons, List.not_mem_nil, or_false] at h
  rcases h with rfl | rfl <;> exact ⟨by decide, by decide, by decide⟩

theorem IsAlias.length_le (h : IsAlias a) (cs : List Char) :
    cs.length ≤ (replaceAtWord a.1.toList a.2.toList 0 false cs).length := by
  have hl : cs.length ≤ (replaceAtWord a.1.toList a.2.toList 0 false cs).length + 0 :=
    length_le_replaceAtWord h.length_lt
  exact hl

theorem length_le_replaceNames (h : ∀ a ∈ names, IsAlias a) (cs : List Char) :
    cs.length ≤ (replaceNames names cs).length := by
  induction names generalizing cs with
  | nil => exact Nat.le_refl _
  | cons a names ih =>
    obtain ⟨ha, hr⟩ := List.forall_mem_cons.mp h
    exact Nat.le_trans (ha.length_le cs) (ih hr _)

/-- A text stays as it is just when none of the names stands in it. -/
theorem replaceNames_eq_self_iff (h : ∀ a ∈ names, IsAlias a) :
    replaceNames names cs = cs ↔ ∀ a ∈ names, ¬ StandsAtWord a.1.toList false cs := by
  induction names generalizing cs with
  | nil => simp [replaceNames]
  | cons a names ih =>
    obtain ⟨ha, hr⟩ := List.forall_mem_cons.mp h
    rw [List.forall_mem_cons, replaceNames, List.foldl_cons, ← replaceNames]
    constructor
    · intro he
      have hone : replaceAtWord a.1.toList a.2.toList 0 false cs = cs := by
        by_contra hne
        rw [replaceAtWord_eq_self_iff ha.length_lt ha.ne_nil, not_not] at hne
        have hlt := length_lt_replaceAtWord ha.length_lt hne ha.ne_nil
        have hle := length_le_replaceNames hr (replaceAtWord a.1.toList a.2.toList 0 false cs)
        rw [he] at hle
        exact Nat.lt_irrefl _ (Nat.lt_of_lt_of_le hlt hle)
      rw [hone] at he
      exact ⟨(replaceAtWord_eq_self_iff ha.length_lt ha.ne_nil).mp hone, (ih hr).mp he⟩
    · rintro ⟨hone, hrest⟩
      rw [replaceAtWord_of_not_standsAtWord hone]
      exact (ih hr).mpr hrest

theorem replaceNames_quoted (h : ∀ a ∈ names, IsAlias a) :
    replaceNames names ('"' :: cs ++ ['"']) = '"' :: replaceNames names cs ++ ['"'] := by
  induction names generalizing cs with
  | nil => rfl
  | cons a names ih =>
    obtain ⟨ha, hr⟩ := List.forall_mem_cons.mp h
    rw [replaceNames, List.foldl_cons, ← replaceNames,
      replaceAtWord_quoted ha.unquoted ha.ne_nil (by decide), ih hr]
    rfl

theorem mem_of_mem_replaceNames (h : c ∈ replaceNames names cs) :
    c ∈ cs ∨ ∃ a ∈ names, c ∈ a.2.toList := by
  induction names generalizing cs with
  | nil => exact .inl h
  | cons a names ih =>
    rw [replaceNames, List.foldl_cons, ← replaceNames] at h
    rcases ih h with h | ⟨b, hb, hc⟩
    · rcases mem_of_mem_replaceAtWord h with h | h
      · exact .inr ⟨a, List.mem_cons_self, h⟩
      · exact .inl h
    · exact .inr ⟨b, List.mem_cons_of_mem _ hb, hc⟩

end ApiScript.Cel
