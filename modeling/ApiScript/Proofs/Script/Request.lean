import ApiScript.Script.Reading
import Mathlib.Tactic.Common

/-! # The request of a script

A script asks for a request by naming a method, with the URL as its value. The methods are searched
in order, but it does not matter which comes first, since no second one may be there.
-/

namespace ApiScript

variable {s : Script} {method : Method} {url : String} {methods : List Method}
  {pair : Method × String}

theorem Method.mem_all (method : Method) : method ∈ all := by cases method <;> decide

theorem Method.nodup_all : all.Nodup := by decide

namespace Script

theorem requestAmong_some : s.requestAmong (some pair) methods = .ok (some (method, url)) ↔
    pair = (method, url) ∧ ∀ other ∈ methods, s.directive? other.text = none := by
  induction methods with
  | nil => simp [requestAmong]
  | cons first rest ih =>
    rw [requestAmong]
    cases h : s.directive? first.text with
    | none => simp [ih, h]
    | some value => simp [h]

theorem requestAmong_none (hn : methods.Nodup) :
    s.requestAmong none methods = .ok (some (method, url)) ↔
      method ∈ methods ∧ s.directive? method.text = some (.string url) ∧
        ∀ other ∈ methods, other ≠ method → s.directive? other.text = none := by
  induction methods with
  | nil => simp [requestAmong]
  | cons first rest ih =>
    obtain ⟨hfirst, hrest⟩ := List.nodup_cons.mp hn
    rw [requestAmong]
    cases h : s.directive? first.text with
    | none =>
      refine (ih hrest).trans ⟨fun ⟨hm, hd, ho⟩ => ?_, fun ⟨hm, hd, ho⟩ => ?_⟩
      · exact ⟨List.mem_cons_of_mem _ hm, hd, List.forall_mem_cons.mpr ⟨fun _ => h, ho⟩⟩
      · have hne : method ≠ first := by
          rintro rfl
          cases h.symm.trans hd
        exact ⟨(List.mem_cons.mp hm).resolve_left hne, hd, (List.forall_mem_cons.mp ho).2⟩
    | some value =>
      have honly : (∀ other ∈ first :: rest, other ≠ method → s.directive? other.text = none) ↔
          first = method ∧ ∀ other ∈ rest, s.directive? other.text = none := by
        constructor
        · intro ho
          obtain ⟨hf, hr⟩ := List.forall_mem_cons.mp ho
          obtain rfl : first = method := by
            by_contra hne
            cases h.symm.trans (hf hne)
          exact ⟨rfl, fun other hm => hr other hm fun he => hfirst (he ▸ hm)⟩
        · rintro ⟨rfl, hr⟩
          exact List.forall_mem_cons.mpr ⟨fun hne => (hne rfl).elim, fun other hm _ => hr other hm⟩
      rw [honly]
      dsimp only [Option.isSome_none]
      rw [if_neg Bool.false_ne_true]
      cases value with
      | string text =>
        dsimp only
        rw [requestAmong_some, Prod.mk.injEq]
        constructor
        · rintro ⟨⟨rfl, rfl⟩, hr⟩
          exact ⟨List.mem_cons_self, h, rfl, hr⟩
        · rintro ⟨-, hd, rfl, hr⟩
          cases h.symm.trans hd
          exact ⟨⟨rfl, rfl⟩, hr⟩
      | _ =>
        refine ⟨nofun, ?_⟩
        rintro ⟨-, hd, rfl, -⟩
        cases h.symm.trans hd

/-- A script asks for a request when it names that method, with the URL, and no other one. -/
theorem request_eq_ok_some_iff : s.request = .ok (some (method, url)) ↔
    s.directive? method.text = some (.string url) ∧
      ∀ other, other ≠ method → s.directive? other.text = none := by
  rw [request, requestAmong_none Method.nodup_all]
  simp [Method.mem_all]

/-! ## Two methods -/

theorem requestAmong_error {found : Option (Method × String)} {f : Fault}
    (h : s.requestAmong found methods = .error f) :
    ∃ message, f = .invalidScript s.label message := by
  induction methods generalizing found with
  | nil => cases h
  | cons first rest ih =>
    rw [requestAmong] at h
    split at h
    · exact ih h
    · split at h
      · cases h
        exact ⟨_, rfl⟩
      · split at h
        · exact ih h
        · cases h
          exact ⟨_, rfl⟩

theorem requestAmong_eq_ok_none {found : Option (Method × String)}
    (h : s.requestAmong found methods = .ok none) :
    found = none ∧ ∀ other ∈ methods, s.directive? other.text = none := by
  induction methods generalizing found with
  | nil =>
    cases h
    exact ⟨rfl, by simp⟩
  | cons first rest ih =>
    rw [requestAmong] at h
    split at h
    · obtain ⟨hn, hr⟩ := ih h
      exact ⟨hn, List.forall_mem_cons.mpr ⟨‹_›, hr⟩⟩
    · split at h
      · cases h
      · split at h
        · obtain ⟨hn, -⟩ := ih h
          cases hn
        · cases h

theorem requestAmong_some_eq_error (h : ∃ other ∈ methods, (s.directive? other.text).isSome) :
    s.requestAmong (some pair) methods =
      .error (.invalidScript s.label "a script may contain only one request method") := by
  induction methods with
  | nil => simp at h
  | cons first rest ih =>
    rw [requestAmong]
    cases hd : s.directive? first.text with
    | none =>
      apply ih
      simpa [hd] using h
    | some value => simp

theorem requestAmong_none_eq_error
    (ht : ∀ (other : Method) value, s.directive? other.text = some value →
      ∃ url, value = .string url)
    (h : ∃ one ∈ methods, ∃ two ∈ methods, one ≠ two ∧ (s.directive? one.text).isSome ∧
      (s.directive? two.text).isSome) :
    s.requestAmong none methods =
      .error (.invalidScript s.label "a script may contain only one request method") := by
  induction methods with
  | nil => simp at h
  | cons first rest ih =>
    obtain ⟨one, hone, two, htwo, hne, hd, hd'⟩ := h
    rw [requestAmong]
    cases hv : s.directive? first.text with
    | none =>
      have hrest : ∀ other ∈ first :: rest, (s.directive? other.text).isSome → other ∈ rest := by
        intro other hm ho
        rcases List.mem_cons.mp hm with rfl | hm
        · simp [hv] at ho
        · exact hm
      exact ih ⟨one, hrest one hone hd, two, hrest two htwo hd', hne, hd, hd'⟩
    | some value =>
      obtain ⟨url, rfl⟩ := ht first value hv
      have hrest : ∃ other ∈ rest, (s.directive? other.text).isSome := by
        rcases List.mem_cons.mp hone with rfl | hone
        · exact ⟨two, (List.mem_cons.mp htwo).resolve_left (Ne.symm hne), hd'⟩
        · exact ⟨one, hone, hd⟩
      exact requestAmong_some_eq_error hrest

/-- A script that names two methods is refused; if both have texts, for that reason. -/
theorem request_of_two {other : Method} (hne : method ≠ other)
    (h : (s.directive? method.text).isSome) (ho : (s.directive? other.text).isSome) :
    ∃ message, s.request = .error (.invalidScript s.label message) ∧
      ((∀ (other : Method) value, s.directive? other.text = some value →
          ∃ url, value = .string url) →
        message = "a script may contain only one request method") := by
  cases hr : s.request with
  | error f =>
    obtain ⟨message, rfl⟩ := requestAmong_error hr
    refine ⟨message, rfl, fun ht => ?_⟩
    have htwo := requestAmong_none_eq_error ht
      ⟨method, method.mem_all, other, other.mem_all, hne, h, ho⟩
    rw [request, htwo] at hr
    cases hr
    rfl
  | ok found =>
    cases found with
    | none =>
      obtain ⟨-, hnone⟩ := requestAmong_eq_ok_none hr
      simp [hnone method method.mem_all] at h
    | some pair =>
      obtain ⟨-, honly⟩ := request_eq_ok_some_iff.mp hr
      by_cases hm : method = pair.1
      · simp [honly other fun he => hne (hm.trans he.symm)] at ho
      · simp [honly method hm] at h

end Script

end ApiScript
