import ApiScript.Session.Execution
import Mathlib.Tactic.Common

/-! # How a call is judged

A list of assertions asks for checks, one after the other: an expression is one, and an object asks
for as many as it has fields. Each is judged by itself in the same session. The call is judged as
they are together: what failed is told in order, unless one of them comes to a fault, which is then
all that is told.
-/

namespace ApiScript

def Verdict.failure? (label : String) : Verdict → Option AssertionFailure
  | .pass => none
  | .fail message => some ⟨label, message⟩

namespace Execution

/-- What an item of a list of assertions asks for. -/
inductive Check where
  | expression (text : String)
  | named (name : String) (spec : Json)
  | invalid (item : Json)

variable {s : Session} {call : CallContext} {directive : String} {f : Fault}
  {checks : List Check} {unmet : List AssertionFailure}

namespace Check

def ofItem : Json → List Check
  | .string text => [.expression text]
  | .object fields => fields.map fun field => .named field.1 field.2
  | other => [.invalid other]

def ofItems (items : List Json) : List Check := items.flatMap ofItem

def label : Check → String
  | expression text => text
  | named name _ => name
  | invalid item => item.render

variable (s call directive)

def assertion : Check → Except Fault (Assertion × Json)
  | expression text => (s.engine none).map fun engine => (Assertion.ofEngine engine, .string text)
  | named name spec => (Execution.assertion s name).map fun plugin => (plugin, spec)
  | invalid item =>
    .error (.invalidScript call.script.label
      s!"{directive} entries must be strings or objects, got {item.render}")

def verdict (c : Check) : Except Fault Verdict := do
  let asked ← c.assertion s call directive
  settle (asked.1 asked.2 call s.env)

def failure? (c : Check) : Option AssertionFailure :=
  match c.verdict s call directive with
  | .ok verdict => verdict.failure? c.label
  | .error _ => none

def judge : List Check → Except Fault (List AssertionFailure)
  | [] => .ok []
  | c :: rest => do
    let verdict ← c.verdict s call directive
    let found ← judge rest
    return (verdict.failure? c.label).toList ++ found

end Check

theorem judge_singleton (c : Check) : Check.judge s call directive [c] =
    (c.verdict s call directive).map fun verdict => (verdict.failure? c.label).toList := by
  rw [Check.judge, Check.judge]
  cases c.verdict s call directive with
  | error f => rfl
  | ok verdict => exact congrArg Except.ok (List.append_nil _)

theorem judge_append (before after : List Check) :
    Check.judge s call directive (before ++ after) = do
      let found ← Check.judge s call directive before
      let rest ← Check.judge s call directive after
      return found ++ rest := by
  induction before with
  | nil =>
    rw [List.nil_append, Check.judge]
    cases Check.judge s call directive after <;> rfl
  | cons c before ih =>
    rw [List.cons_append, Check.judge, Check.judge, ih]
    cases c.verdict s call directive with
    | error f => rfl
    | ok verdict =>
      cases Check.judge s call directive before with
      | error f => rfl
      | ok found =>
        cases Check.judge s call directive after with
        | error f => rfl
        | ok rest => exact congrArg Except.ok (List.append_assoc ..).symm

theorem judge_eq (label : String) (plugin : Assertion) (spec : Json) :
    judge s call label plugin spec =
      (settle (plugin spec call s.env)).map fun verdict => (verdict.failure? label).toList := by
  unfold judge
  rcases settle (plugin spec call s.env) with f | _ | message <;> rfl

theorem judgeFields_eq (fields : Fields Json) : judgeFields s call fields =
    Check.judge s call directive (fields.map fun field => .named field.1 field.2) := by
  induction fields with
  | nil => rfl
  | cons field rest ih =>
    obtain ⟨name, spec⟩ := field
    rw [judgeFields, List.map_cons, Check.judge, Check.verdict, Check.assertion, ← ih]
    cases assertion s name with
    | error f => rfl
    | ok plugin =>
      change (judge s call name plugin spec >>= _) = settle (plugin spec call s.env) >>= _
      rw [judge_eq]
      cases settle (plugin spec call s.env) <;> rfl

theorem judgeItems_eq (items : List Json) : judgeItems s call directive items =
    Check.judge s call directive (Check.ofItems items) := by
  induction items with
  | nil => rfl
  | cons item rest ih =>
    rw [Check.ofItems, List.flatMap_cons, judge_append, ← Check.ofItems, ← ih]
    cases item with
    | string text =>
      rw [judgeItems, Check.ofItem, judge_singleton, Check.verdict, Check.assertion]
      cases s.engine none with
      | error f => rfl
      | ok engine =>
        change (judge s call text (Assertion.ofEngine engine) (.string text) >>= _) = _
        rw [judge_eq]
        rfl
    | object fields =>
      rw [judgeItems, judgeFields_eq, Check.ofItem]
    | _ => rfl

theorem failures_eq : failures s call directive =
    Check.judge s call directive (Check.ofItems (call.script.list directive)) :=
  judgeItems_eq _

/-! ## Checks one by one -/

theorem judge_eq_ok (h : ∀ c ∈ checks, ∃ verdict, c.verdict s call directive = .ok verdict) :
    Check.judge s call directive checks =
      .ok (checks.filterMap (Check.failure? s call directive)) := by
  induction checks with
  | nil => rfl
  | cons c rest ih =>
    obtain ⟨⟨verdict, hc⟩, hrest⟩ := List.forall_mem_cons.mp h
    have hf : c.failure? s call directive = verdict.failure? c.label := by rw [Check.failure?, hc]
    rw [Check.judge, hc, ih hrest, List.filterMap_cons, hf]
    cases verdict <;> rfl

theorem judge_eq_error {before after : List Check} {c : Check}
    (hb : ∀ b ∈ before, ∃ verdict, b.verdict s call directive = .ok verdict)
    (hc : c.verdict s call directive = .error f) :
    Check.judge s call directive (before ++ c :: after) = .error f := by
  rw [judge_append, judge_eq_ok hb, Check.judge, hc]
  rfl

theorem exists_first_fault (s : Session) (call : CallContext) (directive : String)
    (checks : List Check) :
    (∀ c ∈ checks, ∃ verdict, c.verdict s call directive = .ok verdict) ∨
      ∃ before c after f, checks = before ++ c :: after ∧
        (∀ b ∈ before, ∃ verdict, b.verdict s call directive = .ok verdict) ∧
        c.verdict s call directive = .error f := by
  induction checks with
  | nil => exact .inl nofun
  | cons c rest ih =>
    cases hc : c.verdict s call directive with
    | error f => exact .inr ⟨[], c, rest, f, rfl, nofun, hc⟩
    | ok verdict =>
      rcases ih with hrest | ⟨before, d, after, f, rfl, hb, hd⟩
      · exact .inl (List.forall_mem_cons.mpr ⟨⟨verdict, hc⟩, hrest⟩)
      · exact .inr ⟨c :: before, d, after, f, rfl, List.forall_mem_cons.mpr ⟨⟨verdict, hc⟩, hb⟩, hd⟩

/-- A call is judged when each check comes to a verdict, and told is what failed, in order. -/
theorem failures_eq_ok_iff : failures s call directive = .ok unmet ↔
    (∀ c ∈ Check.ofItems (call.script.list directive),
      ∃ verdict, c.verdict s call directive = .ok verdict) ∧
    unmet = (Check.ofItems (call.script.list directive)).filterMap
      (Check.failure? s call directive) := by
  rw [failures_eq]
  constructor
  · intro h
    rcases exists_first_fault s call directive (Check.ofItems (call.script.list directive)) with
      hok | ⟨before, c, after, f, he, hb, hc⟩
    · cases h.symm.trans (judge_eq_ok hok)
      exact ⟨hok, rfl⟩
    · rw [he] at h
      cases h.symm.trans (judge_eq_error hb hc)
  · rintro ⟨hok, rfl⟩
    exact judge_eq_ok hok

/-- The first check that comes to a fault is what comes of judging a call. -/
theorem failures_eq_error_iff : failures s call directive = .error f ↔
    ∃ before c after, Check.ofItems (call.script.list directive) = before ++ c :: after ∧
      (∀ b ∈ before, ∃ verdict, b.verdict s call directive = .ok verdict) ∧
      c.verdict s call directive = .error f := by
  rw [failures_eq]
  constructor
  · intro h
    rcases exists_first_fault s call directive (Check.ofItems (call.script.list directive)) with
      hok | ⟨before, c, after, g, he, hb, hc⟩
    · cases h.symm.trans (judge_eq_ok hok)
    · rw [he] at h
      cases h.symm.trans (judge_eq_error hb hc)
      exact ⟨before, c, after, he, hb, hc⟩
  · rintro ⟨before, c, after, he, hb, hc⟩
    rw [he]
    exact judge_eq_error hb hc

theorem filterMap_failure?_ne_nil
    (h : ∃ c ∈ checks, ∃ message, c.verdict s call directive = .ok (.fail message)) :
    checks.filterMap (Check.failure? s call directive) ≠ [] := by
  obtain ⟨c, hc, message, hv⟩ := h
  have hf : c.failure? s call directive = some ⟨c.label, message⟩ := by
    rw [Check.failure?, hv]
    rfl
  exact List.ne_nil_of_mem (List.mem_filterMap.mpr ⟨c, hc, hf⟩)

theorem failures_eq_nil_iff : failures s call directive = .ok [] ↔
    ∀ c ∈ Check.ofItems (call.script.list directive), c.verdict s call directive = .ok .pass := by
  rw [failures_eq_ok_iff, eq_comm, List.filterMap_eq_nil_iff]
  constructor
  · rintro ⟨hok, hnone⟩ c hc
    obtain ⟨verdict, hv⟩ := hok c hc
    have hn := hnone c hc
    rw [Check.failure?, hv] at hn
    cases verdict with
    | pass => exact hv
    | fail message => cases hn
  · intro h
    refine ⟨fun c hc => ⟨.pass, h c hc⟩, fun c hc => ?_⟩
    rw [Check.failure?, h c hc]
    rfl

end Execution

end ApiScript
