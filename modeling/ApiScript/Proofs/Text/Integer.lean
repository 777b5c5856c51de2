import ApiScript.Text.Basic
import Mathlib.Algebra.Group.Nat.Defs
import Mathlib.Tactic.Common

/-! # What whole numbers are read from

A whole number is read from one or more digits, perhaps after a plus sign, and from nothing else.
-/

namespace ApiScript

variable {c : Char} {cs : List Char} {m n bits : Nat}

/-- A whole number is written in decimal digits, perhaps after a plus sign. -/
inductive InDecimal : List Char → Nat → Prop where
  | unsigned {digits : List Char} : digits ≠ [] → (∀ d ∈ digits, d.isDigit = true) →
      InDecimal digits (Nat.ofDigitChars 10 digits 0)
  | signed {digits : List Char} : digits ≠ [] → (∀ d ∈ digits, d.isDigit = true) →
      InDecimal ('+' :: digits) (Nat.ofDigitChars 10 digits 0)

theorem inDecimal_toDigits (n : Nat) : InDecimal (Nat.toDigits 10 n) n := by
  have hd : ∀ d ∈ Nat.toDigits 10 n, d.isDigit = true := fun d hd =>
    Nat.isDigit_of_mem_toDigits (by decide) (by decide) hd
  have h := InDecimal.unsigned Nat.toDigits_ne_nil hd
  rwa [Nat.ofDigitChars_toDigits (by decide) (by decide)] at h

/-! ## Reading digits -/

theorem digitValue?_of_isDigit (h : c.isDigit = true) :
    digitValue? c = some (c.toNat - 48) ∧ c.toNat - 48 < 10 := by
  obtain ⟨hlo, hhi⟩ := Char.isDigit_iff_toNat.mp h
  have hlt : c.toNat - 48 < 10 := Nat.sub_lt_left_of_lt_add hlo (Nat.lt_succ_of_le hhi)
  exact ⟨if_pos ⟨hlo, hhi⟩, hlt⟩

theorem isDigit_of_digitValue? (h : digitValue? c = some m) (hm : m < 10) : c.isDigit = true := by
  unfold digitValue? at h
  split at h
  · rename_i hc
    exact Char.isDigit_iff_toNat.mpr hc
  · split at h
    · rename_i hc
      have : 97 ≤ c.toNat := hc.1
      cases h
      omega
    · split at h
      · rename_i hc
        have : 65 ≤ c.toNat := hc.1
        cases h
        omega
      · cases h

theorem digitsValue?_ten_eq_some_iff : digitsValue? 10 m cs = some n ↔
    (∀ c ∈ cs, c.isDigit = true) ∧ Nat.ofDigitChars 10 cs m = n := by
  induction cs generalizing m with
  | nil => simp [digitsValue?, Nat.ofDigitChars]
  | cons c cs ih =>
    rw [digitsValue?, List.forall_mem_cons]
    by_cases hc : c.isDigit = true
    · obtain ⟨hv, hlt⟩ := digitValue?_of_isDigit hc
      rw [hv]
      dsimp only
      rw [if_pos hlt, ih, Nat.mul_comm m 10]
      simp only [hc, true_and]
      rfl
    · refine iff_of_false (fun h => ?_) fun h => hc h.1.1
      cases hv : digitValue? c with
      | none =>
        rw [hv] at h
        cases h
      | some d =>
        rw [hv] at h
        dsimp only at h
        split at h
        · exact hc (isDigit_of_digitValue? hv ‹_›)
        · cases h

theorem naturalOf?_ten_eq_some_iff : naturalOf? 10 cs = some n ↔
    cs ≠ [] ∧ (∀ c ∈ cs, c.isDigit = true) ∧ Nat.ofDigitChars 10 cs 0 = n := by
  rw [naturalOf?, ← digitsValue?_ten_eq_some_iff]
  cases cs with
  | nil => simp
  | cons c cs => simp

/-- A whole number is read where one is written that fits. -/
theorem unsignedOf?_ten_eq_some_iff :
    unsignedOf? 10 bits cs = some n ↔ InDecimal cs n ∧ n < 2 ^ bits := by
  unfold unsignedOf?
  rw [Option.filter_eq_some_iff, decide_eq_true_eq, naturalOf?_ten_eq_some_iff]
  refine and_congr_left fun _ => ?_
  constructor
  · intro h
    split at h
    · obtain ⟨hne, hd, rfl⟩ := h
      exact .signed hne hd
    · obtain ⟨hne, hd, rfl⟩ := h
      exact .unsigned hne hd
  · intro h
    cases h with
    | unsigned hne hd =>
      split
      · exact absurd (hd '+' List.mem_cons_self) (by decide)
      · exact ⟨hne, hd, rfl⟩
    | signed hne hd => exact ⟨hne, hd, rfl⟩

end ApiScript
