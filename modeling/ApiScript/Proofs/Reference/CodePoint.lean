import ApiScript.Proofs.Reference.Grammar

/-! # Names of code points

Every character has a name that is made of its code point, with a `U` of either case and four to six
hexadecimal digits, and such a name stands for nothing else.
-/

namespace ApiScript.CodePoint

/-- A name is made of the code point of a character. -/
inductive Names : List Char → Char → Prop where
  | intro {u c : Char} {digits : List Char} : u = 'U' ∨ u = 'u' → 4 ≤ digits.length →
      digits.length ≤ 6 → (∀ d ∈ digits, isHexDigit d = true) →
      naturalOf? 16 digits = some c.toNat → Names (u :: '+' :: digits) c

variable {name digits : List Char} {c : Char}

theorem charOf?_eq_some_iff {n : Nat} : charOf? n = some c ↔ n = c.toNat := by
  by_cases h : n.isValidChar
  · have hn : (Char.ofNatAux n h).toNat = n := rfl
    rw [charOf?, dif_pos h, Option.some_inj, ← Char.toNat_inj, hn]
  · rw [charOf?, dif_neg h]
    constructor
    · intro hn
      cases hn
    · rintro rfl
      exact absurd c.valid h

theorem areDigits_iff : areDigits digits = true ↔
    4 ≤ digits.length ∧ digits.length ≤ 6 ∧ ∀ d ∈ digits, isHexDigit d = true := by
  simp [areDigits, and_assoc]

theorem digits?_eq_some_iff : digits? name = some digits ↔
    (name = 'U' :: '+' :: digits ∨ name = 'u' :: '+' :: digits) ∧ areDigits digits = true := by
  unfold digits?
  split <;> grind

theorem isName_iff : isName name = true ↔ ∃ digits,
    (name = 'U' :: '+' :: digits ∨ name = 'u' :: '+' :: digits) ∧ areDigits digits = true := by
  simp only [isName, Option.isSome_iff_exists, digits?_eq_some_iff]

theorem char?_eq_some_iff : char? name = some c ↔ Names name c := by
  simp only [char?, Option.bind_eq_some_iff, digits?_eq_some_iff, charOf?_eq_some_iff,
    areDigits_iff]
  constructor
  · rintro ⟨ds, ⟨rfl | rfl, h₁, h₂, h₃⟩, n, hn, rfl⟩
    · exact .intro (.inl rfl) h₁ h₂ h₃ hn
    · exact .intro (.inr rfl) h₁ h₂ h₃ hn
  · rintro ⟨rfl | rfl, h₁, h₂, h₃, hn⟩
    · exact ⟨_, ⟨.inl rfl, h₁, h₂, h₃⟩, _, hn, rfl⟩
    · exact ⟨_, ⟨.inr rfl, h₁, h₂, h₃⟩, _, hn, rfl⟩

theorem Names.isName (h : Names name c) : isName name = true := by
  obtain ⟨ds, hds, -⟩ := Option.bind_eq_some_iff.mp (char?_eq_some_iff.mpr h)
  exact isName_iff.mpr ⟨ds, digits?_eq_some_iff.mp hds⟩

/-! ## The characters of a name -/

theorem mem_of_isHexDigit {d : Char} (h : isHexDigit d = true) :
    d ∈ "0123456789abcdefABCDEF".toList := by
  have hr : 48 ≤ d.toNat ∧ d.toNat ≤ 57 ∨ 97 ≤ d.toNat ∧ d.toNat ≤ 102 ∨
      65 ≤ d.toNat ∧ d.toNat ≤ 70 := by
    simp only [isHexDigit, Bool.or_eq_true, Bool.and_eq_true, decide_eq_true_eq, or_assoc] at h
    exact h
  have hall : ∀ n < 103, 48 ≤ n ∧ n ≤ 57 ∨ 97 ≤ n ∧ n ≤ 102 ∨ 65 ≤ n ∧ n ≤ 70 →
      Char.ofNat n ∈ "0123456789abcdefABCDEF".toList := by decide
  have := hall d.toNat (by omega) hr
  rwa [Char.ofNat_toNat] at this

theorem Names.chars (h : Names name c) :
    ∀ d ∈ name, isNameChar d = true ∧ isBlank d = false := by
  have hmem : ∀ d ∈ name, d ∈ "U+u0123456789abcdefABCDEF".toList := by
    obtain ⟨hu, -, -, hdigits, -⟩ := h
    intro d hd
    rcases List.mem_cons.mp hd with rfl | hd
    · rcases hu with rfl | rfl <;> decide
    · rcases List.mem_cons.mp hd with rfl | hd
      · decide
      · exact List.mem_append_right "U+u".toList (mem_of_isHexDigit (hdigits d hd))
  have hall : "U+u0123456789abcdefABCDEF".toList.all fun d => isNameChar d && !isBlank d := by
    decide
  intro d hd
  have hd := List.all_eq_true.mp hall d (hmem d hd)
  rwa [Bool.and_eq_true, Bool.not_eq_true'] at hd

theorem Names.wellFormed (h : Names name c) : Reference.WellFormed ⟨name, none⟩ where
  name_ne_nil := by
    cases h
    exact List.cons_ne_nil _ _
  isNameChar d hd := (h.chars d hd).1
  balanced _ ha := nomatch ha

/-! ## Every character has a name -/

theorem digitValue?_digitChar {d : Nat} (h : d < 16) :
    digitValue? (Nat.digitChar d) = some d ∧ isHexDigit (Nat.digitChar d) = true := by
  revert d
  decide

theorem exists_names (c : Char) : ∃ name, Names name c := by
  have hc : c.toNat < 16777216 := by
    have := c.valid
    simp only [UInt32.isValidChar, Nat.isValidChar] at this
    simp only [Char.toNat]
    omega
  let digit (place : Nat) : Char := Nat.digitChar (c.toNat / place % 16)
  have hlt (place : Nat) : c.toNat / place % 16 < 16 := Nat.mod_lt _ (by decide)
  have hv (place : Nat) : digitValue? (digit place) = some (c.toNat / place % 16) :=
    (digitValue?_digitChar (hlt place)).1
  have hh : ∀ d ∈ [1048576, 65536, 4096, 256, 16, 1].map digit, isHexDigit d = true := by
    intro d hd
    obtain ⟨place, -, rfl⟩ := List.mem_map.mp hd
    exact (digitValue?_digitChar (hlt place)).2
  refine ⟨_, .intro (.inl rfl) (by simp) (by simp) hh ?_⟩
  simp only [List.map_cons, List.map_nil, naturalOf?, List.isEmpty_cons, digitsValue?, hv, hlt,
    if_true, Bool.false_eq_true, if_false, Option.some_inj]
  omega

end ApiScript.CodePoint
