import ApiScript.Reference
import Mathlib.Data.List.Infix

/-! # What a reference looks like

A reference is read where one is written, and nowhere else: its name is a run of one or more
letters, digits and marks, and in its alternative no brace closes before it opens and all are
closed.
-/

namespace ApiScript.Reference

/-- With some braces open, no more are closed than are open, and in the end all are closed. -/
structure Closes (depth : Nat) (cs : List Char) : Prop where
  opened : ∀ start, start <+: cs → start.count '}' ≤ depth + start.count '{'
  closed : cs.count '}' = depth + cs.count '{'

abbrev Balanced (cs : List Char) : Prop := Closes 0 cs

structure WellFormed (r : Reference) : Prop where
  name_ne_nil : r.name ≠ []
  isNameChar : ∀ c ∈ r.name, isNameChar c = true
  balanced : ∀ alt, r.alt = some alt → Balanced alt

/-! ## Braces -/

theorem closes_nil {depth : Nat} : Closes depth [] ↔ depth = 0 := by
  constructor
  · intro h
    simpa using h.closed.symm
  · rintro rfl
    exact ⟨fun start h => by rw [List.prefix_nil.mp h]; simp, rfl⟩

theorem closes_cons {depth : Nat} {c : Char} {cs : List Char} :
    Closes depth (c :: cs) ↔ (c = '}' → 0 < depth) ∧
      Closes (if c = '{' then depth + 1 else if c = '}' then depth - 1 else depth) cs := by
  have hcount : ∀ l : List Char,
      (c :: l).count '}' = l.count '}' + (if c = '}' then 1 else 0) ∧
      (c :: l).count '{' = l.count '{' + (if c = '{' then 1 else 0) := fun l => by
    simp only [List.count_cons, beq_iff_eq, and_self]
  constructor
  · intro h
    have hd : c = '}' → 0 < depth := by
      rintro rfl
      have := h.opened ['}'] ⟨cs, rfl⟩
      simp at this
      omega
    refine ⟨hd, fun start hs => ?_, ?_⟩
    · have := h.opened (c :: start) (List.cons_prefix_cons.mpr ⟨rfl, hs⟩)
      rw [(hcount start).1, (hcount start).2] at this
      split_ifs at this ⊢ <;> grind
    · have := h.closed
      rw [(hcount cs).1, (hcount cs).2] at this
      split_ifs at this ⊢ <;> grind
  · rintro ⟨hd, h⟩
    refine ⟨fun start hs => ?_, ?_⟩
    · rcases List.prefix_cons_iff.mp hs with rfl | ⟨rest, rfl, hr⟩
      · simp
      · have := h.opened rest hr
        rw [(hcount rest).1, (hcount rest).2]
        split_ifs at this ⊢ <;> grind
    · have := h.closed
      rw [(hcount cs).1, (hcount cs).2]
      split_ifs at this ⊢ <;> grind

theorem closes_brace {depth : Nat} {cs : List Char} :
    Closes depth ('}' :: cs) ↔ 0 < depth ∧ Closes (depth - 1) cs := by
  simp [closes_cons]

theorem closes_plain {depth : Nat} {c : Char} {cs : List Char} (ho : c ≠ '{') (hc : c ≠ '}') :
    Closes depth (c :: cs) ↔ Closes depth cs := by
  rw [closes_cons, if_neg ho, if_neg hc]
  exact ⟨And.right, fun h => ⟨fun he => (hc he).elim, h⟩⟩

theorem closes_name {depth : Nat} {name cs : List Char} (hn : ∀ c ∈ name, isNameChar c = true) :
    Closes depth (name ++ cs) ↔ Closes depth cs := by
  induction name with
  | nil => rfl
  | cons c name ih =>
    obtain ⟨hc, hn⟩ := List.forall_mem_cons.mp hn
    have h₁ : c ≠ '{' := by rintro rfl; exact absurd hc (by decide)
    have h₂ : c ≠ '}' := by rintro rfl; exact absurd hc (by decide)
    rw [List.cons_append, closes_plain h₁ h₂, ih hn]

theorem split_cons {depth : Nat} {c : Char} {cs before after : List Char}
    (h : depth = 0 → c ≠ '}') :
    c :: cs = before ++ '}' :: after ∧ Closes depth before ↔
      ∃ rest, before = c :: rest ∧ cs = rest ++ '}' :: after ∧
        Closes (if c = '{' then depth + 1 else if c = '}' then depth - 1 else depth) rest := by
  constructor
  · rintro ⟨he, hc⟩
    rcases before with _ | ⟨b, rest⟩
    · exact absurd (List.cons.inj he).1 (h (closes_nil.mp hc))
    · obtain ⟨rfl, hr⟩ := List.cons.inj he
      exact ⟨rest, rfl, hr, (closes_cons.mp hc).2⟩
  · rintro ⟨rest, rfl, rfl, hc⟩
    exact ⟨rfl, closes_cons.mpr ⟨fun hb => Nat.pos_of_ne_zero fun hd => h hd hb, hc⟩⟩

/-- A text is split at the brace that closes what is open, and nowhere else. -/
theorem splitAtClosing_eq_some_iff {depth : Nat} {cs before after : List Char} :
    splitAtClosing depth cs = some (before, after) ↔
      cs = before ++ '}' :: after ∧ Closes depth before := by
  fun_induction splitAtClosing depth cs generalizing before after with
  | case1 => simp
  | case2 cs =>
    constructor
    · intro h
      cases h
      exact ⟨rfl, closes_nil.mpr rfl⟩
    · rintro ⟨he, hc⟩
      rcases before with _ | ⟨c, before⟩
      · simpa using he
      · obtain ⟨rfl, -⟩ := List.cons.inj he
        exact absurd (closes_cons.mp hc).1 (by simp)
  | case3 depth c cs hd inner hn =>
    rename_i ih
    rw [split_cons hd]
    constructor
    · intro h
      cases h
    · rintro ⟨rest, -, h⟩
      cases hn.symm.trans (ih.mpr h)
  | case4 depth c cs hd inner start rest hs =>
    rename_i ih
    rw [split_cons hd]
    constructor
    · intro h
      cases h
      exact ⟨start, rfl, ih.mp hs⟩
    · rintro ⟨start', rfl, h⟩
      cases hs.symm.trans (ih.mpr h)
      rfl

theorem closing_unique {depth : Nat} {before before' after after' : List Char}
    (hb : Closes depth before) (hb' : Closes depth before')
    (h : before ++ '}' :: after = before' ++ '}' :: after') :
    before = before' ∧ after = after' := by
  have hs : splitAtClosing depth (before ++ '}' :: after) = some (before, after) :=
    splitAtClosing_eq_some_iff.mpr ⟨rfl, hb⟩
  have hs' : splitAtClosing depth (before ++ '}' :: after) = some (before', after') :=
    splitAtClosing_eq_some_iff.mpr ⟨h, hb'⟩
  exact Prod.mk.inj (Option.some.inj (hs.symm.trans hs'))

/-! ## References -/

theorem not_isNameChar_brace : isNameChar '}' = false := by decide

theorem not_isNameChar_bar : isNameChar '|' = false := by decide

theorem takeWhile_name {name : List Char} {c : Char} (hn : ∀ c ∈ name, isNameChar c = true)
    (hc : isNameChar c = false) (rest : List Char) :
    (name ++ c :: rest).takeWhile isNameChar = name ∧
      (name ++ c :: rest).dropWhile isNameChar = c :: rest := by
  rw [List.takeWhile_append_of_pos hn, List.dropWhile_append_of_pos hn]
  simp [hc]

theorem afterName?_eq_some_iff {name cs rest : List Char} {r : Reference} :
    afterName? name cs = some (r, rest) ↔ r.name = name ∧
      ((r.alt = none ∧ cs = '}' :: rest) ∨
        ∃ alt, r.alt = some alt ∧ cs = '|' :: (alt ++ '}' :: rest) ∧ Balanced alt) := by
  obtain ⟨n, a⟩ := r
  unfold afterName?
  split
  · simp [and_assoc, eq_comm]
  · rename_i after
    cases hs : splitAtClosing 0 after with
    | none =>
      refine ⟨nofun, ?_⟩
      rintro ⟨-, ⟨-, h⟩ | ⟨alt, -, h, hb⟩⟩
      · cases h
      · cases hs.symm.trans (splitAtClosing_eq_some_iff.mpr ⟨(List.cons.inj h).2, hb⟩)
    | some split =>
      obtain ⟨alt, after⟩ := split
      constructor
      · intro h
        cases h
        obtain ⟨rfl, hb⟩ := splitAtClosing_eq_some_iff.mp hs
        exact ⟨rfl, .inr ⟨alt, rfl, rfl, hb⟩⟩
      · rintro ⟨rfl, ⟨-, h⟩ | ⟨alt, rfl, h, hb⟩⟩
        · cases h
        · cases hs.symm.trans (splitAtClosing_eq_some_iff.mpr ⟨(List.cons.inj h).2, hb⟩)
          rfl
  · rename_i hc hb
    refine ⟨nofun, ?_⟩
    rintro ⟨-, ⟨-, h⟩ | ⟨alt, -, h, -⟩⟩
    · exact (hc _ h).elim
    · exact (hb _ h).elim

theorem read?_eq_some_iff {cs rest : List Char} {r : Reference} :
    read? cs = some (r, rest) ↔ '{' :: cs = r.written ++ rest ∧ r.WellFormed := by
  have hw : '{' :: cs = r.written ++ rest ↔ (r.alt = none ∧ cs = r.name ++ '}' :: rest) ∨
      ∃ alt, r.alt = some alt ∧ cs = r.name ++ '|' :: (alt ++ '}' :: rest) := by
    unfold written
    cases r.alt <;> simp
  rw [hw]
  constructor
  · intro h
    unfold read? at h
    split at h
    · cases h
    · rename_i hne
      obtain ⟨hn, h⟩ := afterName?_eq_some_iff.mp h
      have hcs : cs = r.name ++ cs.dropWhile isNameChar := by
        rw [hn, List.takeWhile_append_dropWhile]
      have hname : ∀ c ∈ r.name, isNameChar c = true := by
        rw [hn]
        exact List.all_eq_true.mp List.all_takeWhile
      rw [← hn, List.isEmpty_iff] at hne
      rcases h with ⟨ha, hd⟩ | ⟨alt, ha, hd, hb⟩
      · rw [hd] at hcs
        exact ⟨.inl ⟨ha, hcs⟩, hne, hname, by simp [ha]⟩
      · rw [hd] at hcs
        exact ⟨.inr ⟨alt, ha, hcs⟩, hne, hname, by simpa [ha] using hb⟩
  · rintro ⟨h, hr⟩
    have hne : r.name.isEmpty = false := by simpa using hr.name_ne_nil
    unfold read?
    rcases h with ⟨ha, rfl⟩ | ⟨alt, ha, rfl⟩
    · obtain ⟨ht, hd⟩ := takeWhile_name hr.isNameChar not_isNameChar_brace rest
      rw [ht, hd, hne]
      exact afterName?_eq_some_iff.mpr ⟨rfl, .inl ⟨ha, rfl⟩⟩
    · obtain ⟨ht, hd⟩ := takeWhile_name hr.isNameChar not_isNameChar_bar (alt ++ '}' :: rest)
      rw [ht, hd, hne]
      exact afterName?_eq_some_iff.mpr ⟨rfl, .inr ⟨alt, ha, rfl, hr.balanced alt ha⟩⟩

theorem written_eq_cons (r : Reference) : ∃ cs, r.written = '{' :: cs := by
  unfold written
  split <;> exact ⟨_, rfl⟩

theorem WellFormed.exists_inside {r : Reference} (h : r.WellFormed) :
    ∃ inside, Balanced inside ∧ r.written = '{' :: (inside ++ ['}']) := by
  unfold written
  cases ha : r.alt with
  | none =>
    refine ⟨r.name ++ [], (closes_name h.isNameChar).mpr (closes_nil.mpr rfl), ?_⟩
    rw [List.append_nil, List.cons_append]
  | some alt =>
    have hb : Balanced ('|' :: alt) :=
      (closes_plain (by decide) (by decide)).mpr (h.balanced alt ha)
    exact ⟨r.name ++ '|' :: alt, (closes_name h.isNameChar).mpr hb, by simp⟩

/-- A text consists of a reference when it is one, but for white space around it. -/
theorem ofNode?_eq_some_iff {cs : List Char} {r : Reference} :
    ofNode? cs = some r ↔ trimBlanks cs = r.written ∧ r.WellFormed := by
  unfold ofNode?
  constructor
  · intro h
    split at h
    · rename_i rest ht
      split at h
      · rename_i hr
        cases h
        simpa [ht] using read?_eq_some_iff.mp hr
      · cases h
    · cases h
  · rintro ⟨ht, hr⟩
    obtain ⟨rest, hw⟩ := r.written_eq_cons
    have hread : read? rest = some (r, []) :=
      read?_eq_some_iff.mpr ⟨by rw [hw, List.append_nil], hr⟩
    rw [ht, hw]
    simp only [hread]

/-! ## Mentions -/

/-- A name is mentioned where a reference with that name is written, be it in the alternative of
another. -/
def Mentions (cs name : List Char) : Prop := ∃ r, WellFormed r ∧ r.name = name ∧ r.written <:+: cs

theorem Mentions.mono {cs ds name : List Char} (h : Mentions cs name) (hi : cs <:+: ds) :
    Mentions ds name := by
  obtain ⟨r, hr, hn, hw⟩ := h
  exact ⟨r, hr, hn, hw.trans hi⟩

theorem mentions_written {r : Reference} (h : r.WellFormed) : Mentions r.written r.name :=
  ⟨r, h, rfl, List.infix_rfl⟩

theorem alt_infix_written {r : Reference} {alt : List Char} (h : r.alt = some alt) :
    alt <:+: r.written := ⟨'{' :: r.name ++ ['|'], ['}'], by simp [written, h]⟩

theorem name_infix_written (r : Reference) : r.name <:+: r.written := by
  unfold written
  split
  · exact ⟨['{'], ['}'], rfl⟩
  · rename_i alt _
    exact ⟨['{'], '|' :: alt ++ ['}'], by simp⟩

theorem Mentions.subset {cs name : List Char} (h : Mentions cs name) : name ⊆ cs := by
  obtain ⟨r, -, rfl, hw⟩ := h
  exact List.Subset.trans r.name_infix_written.subset hw.subset

theorem trimBlanks_infix (cs : List Char) : trimBlanks cs <:+: cs := by
  have hs : (cs.dropWhile isBlank).reverse.dropWhile isBlank <:+ (cs.dropWhile isBlank).reverse :=
    List.dropWhile_suffix _
  have hp : trimBlanks cs <+: cs.dropWhile isBlank := by
    rw [← List.reverse_suffix, trimBlanks, List.reverse_reverse]
    exact hs
  exact hp.isInfix.trans (List.dropWhile_suffix _).isInfix

end ApiScript.Reference
