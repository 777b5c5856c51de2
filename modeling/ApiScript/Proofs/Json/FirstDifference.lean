import ApiScript.Json.Printer
import ApiScript.Proofs.Fields
import ApiScript.Proofs.Json.Equality
import Mathlib.Order.Defs.LinearOrder
import Mathlib.Data.String.Basic

/-! # Where two values differ first

Objects are visited by the expected names in order and after them by the unexpected ones, lists by
position, and every part with its own parts before the next. The first difference is at a place
before which the values agree everywhere, and it is the only one of this kind.
-/

namespace ApiScript.Json

def Step.text : Step → String
  | .key name => "." ++ name
  | .index i => "[" ++ toString i ++ "]"

def pathText : List Step → String
  | [] => ""
  | s :: p => s.text ++ pathText p

inductive Ending where
  | missing
  | unexpected
  | count (got want : Nat)
  | values (want got : Json)

def Ending.text : Ending → String
  | .missing => " is missing"
  | .unexpected => " is unexpected"
  | .count got want => " has " ++ toString got ++ " element(s), expected " ++ toString want
  | .values want got => ": expected " ++ want.render ++ ", got " ++ got.render

/-- What is expected and what is there, where it is wrong in this way. -/
inductive Ending.Holds : Ending → Option Json → Option Json → Prop where
  | missing (want : Json) : Holds .missing (some want) none
  | unexpected (got : Json) : Holds .unexpected none (some got)
  | count {wants gots : List Json} : wants.length ≠ gots.length →
      Holds (.count gots.length wants.length) (some (.array wants)) (some (.array gots))
  | values {want got : Json} : ¬ Alike want got → ¬ want.Equals got →
      Holds (.values want got) (some want) (some got)

/-- Two objects, or two lists of one length: what is compared are their parts. -/
inductive Entered : Json → Json → Prop where
  | objects (want got : Fields Json) : Entered (.object want) (.object got)
  | lists {wants gots : List Json} : wants.length = gots.length →
      Entered (.array wants) (.array gots)

/-- The part of an expected value to which a step leads is visited before that of another step. -/
inductive Step.Before : Json → Step → Step → Prop where
  | expected {want : Fields Json} {m n : String} : Fields.contains m want = true →
      Fields.contains n want = true → m < n → Before (.object want) (.key m) (.key n)
  | unexpectedLast {want : Fields Json} {m n : String} : Fields.contains m want = true →
      Fields.contains n want = false → Before (.object want) (.key m) (.key n)
  | unexpected {want : Fields Json} {m n : String} : Fields.contains m want = false →
      Fields.contains n want = false → m < n → Before (.object want) (.key m) (.key n)
  | items {wants : List Json} {i j : Nat} : i < j → Before (.array wants) (.index i) (.index j)

/-- One path branches off before another. -/
inductive Precedes : Option Json → List Step → List Step → Prop where
  | here {want : Json} {s t : Step} {p q : List Step} : Step.Before want s t →
      Precedes (some want) (s :: p) (t :: q)
  | inside {want : Option Json} {s : Step} {p q : List Step} :
      Precedes (want.bind (part? s)) p q → Precedes want (s :: p) (s :: q)

/-- Where a path ends the values differ as the ending says; on the way there only parts are
compared, and whatever is visited before agrees. -/
structure FirstDifference (want got : Option Json) (p : List Step) (d : Ending) : Prop where
  differs : d.Holds (along? p want) (along? p got)
  entered : ∀ q, q <+: p → q ≠ p →
    ∃ x y, along? q want = some x ∧ along? q got = some y ∧ Entered x y
  agrees : ∀ q, Precedes want q p → Option.Rel Equals (along? q want) (along? q got)

variable {want got : Option Json} {x y : Json} {s t : Step} {p q : List Step} {d e : Ending}

/-! ## Endings -/

theorem Ending.Holds.not_rel (h : d.Holds want got) : ¬ Option.Rel Equals want got := by
  rintro hr
  cases h with
  | missing => cases hr
  | unexpected => cases hr
  | count hl =>
    cases hr with
    | some he =>
      cases he with
      | array hl' => exact hl hl'
  | values _ hne =>
    cases hr with
    | some he => exact hne he

theorem Ending.Holds.not_entered (h : d.Holds (some x) (some y)) : ¬ Entered x y := by
  rintro (⟨want, got⟩ | hl)
  · cases h with
    | values ha => exact ha (.objects _ _)
  · cases h with
    | count hl' => exact hl' hl
    | values ha => exact ha (.lists _ _)

theorem Ending.Holds.unique (h : d.Holds want got) (h' : e.Holds want got) : d = e := by
  cases h with
  | missing => cases h'; rfl
  | unexpected => cases h'; rfl
  | count =>
    cases h' with
    | count => rfl
    | values ha => exact (ha (.lists _ _)).elim
  | values ha =>
    cases h' with
    | count => exact (ha (.lists _ _)).elim
    | values => rfl

/-! ## Step by step -/

theorem firstDifference_nil_iff : FirstDifference want got [] d ↔ d.Holds want got := by
  constructor
  · intro h
    exact h.differs
  · intro h
    refine ⟨h, fun q hq hne => ?_, fun q hq => ?_⟩
    · exact (hne (List.prefix_nil.mp hq)).elim
    · cases hq

theorem firstDifference_cons_iff : FirstDifference (some x) (some y) (s :: p) d ↔
    Entered x y ∧ (∀ t, Step.Before x t s → Option.Rel Equals (part? t x) (part? t y)) ∧
      FirstDifference (part? s x) (part? s y) p d := by
  constructor
  · intro h
    refine ⟨?_, fun t ht => h.agrees [t] (.here ht), h.differs, fun q hq hne => ?_, fun q hq => ?_⟩
    · obtain ⟨x', y', hx, hy, he⟩ := h.entered [] List.nil_prefix (List.cons_ne_nil s p).symm
      cases hx
      cases hy
      exact he
    · exact h.entered (s :: q) (List.cons_prefix_cons.mpr ⟨rfl, hq⟩) (by simpa using hne)
    · exact h.agrees (s :: q) (.inside hq)
  · rintro ⟨he, hb, hd⟩
    refine ⟨hd.differs, fun q hq hne => ?_, fun q hq => ?_⟩
    · cases q with
      | nil => exact ⟨x, y, rfl, rfl, he⟩
      | cons t q =>
        obtain ⟨rfl, hp⟩ := List.cons_prefix_cons.mp hq
        exact hd.entered q hp (by simpa using hne)
    · cases hq with
      | here ht => exact rel_along? (hb _ ht) _
      | inside hq => exact hd.agrees _ hq

/-! ## The only one -/

theorem before_or_before_of_ne (want : Fields Json) {m n : String} (h : m ≠ n) :
    Step.Before (.object want) (.key m) (.key n) ∨
      Step.Before (.object want) (.key n) (.key m) := by
  cases hm : Fields.contains m want <;> cases hn : Fields.contains n want
  · exact (lt_or_gt_of_ne h).imp (.unexpected hm hn) (.unexpected hn hm)
  · exact .inr (.unexpectedLast hn hm)
  · exact .inl (.unexpectedLast hm hn)
  · exact (lt_or_gt_of_ne h).imp (.expected hm hn) (.expected hn hm)

/-- Of two parts of values that are compared, one is visited before the other. -/
theorem Entered.trichotomy (h : Entered x y) (hs : part? s x ≠ none ∨ part? s y ≠ none)
    (ht : part? t x ≠ none ∨ part? t y ≠ none) :
    s = t ∨ Step.Before x s t ∨ Step.Before x t s := by
  rw [or_iff_not_imp_left]
  intro hne
  cases h with
  | objects want got =>
    cases s with
    | index => simp [part?] at hs
    | key m =>
      cases t with
      | index => simp [part?] at ht
      | key n => exact before_or_before_of_ne want fun he => hne (congrArg Step.key he)
  | lists =>
    cases s with
    | key => simp [part?] at hs
    | index i =>
      cases t with
      | key => simp [part?] at ht
      | index j =>
        have hij : i ≠ j := fun he => hne (congrArg Step.index he)
        exact (lt_or_gt_of_ne hij).imp .items .items

theorem FirstDifference.ne_none (h : FirstDifference want got p d) : want ≠ none ∨ got ≠ none := by
  by_contra hn
  obtain ⟨rfl, rfl⟩ : want = none ∧ got = none := by simpa using hn
  have hd := h.differs
  rw [along?_none] at hd
  cases hd

theorem FirstDifference.exists_eq_some (h : FirstDifference want got (s :: p) d) :
    ∃ x y, want = some x ∧ got = some y := by
  obtain ⟨x, y, hx, hy, -⟩ := h.entered [] List.nil_prefix (List.cons_ne_nil s p).symm
  exact ⟨x, y, hx, hy⟩

theorem FirstDifference.unique (h : FirstDifference want got p d)
    (h' : FirstDifference want got q e) : p = q ∧ d = e := by
  induction p generalizing want got q with
  | nil =>
    cases q with
    | nil => exact ⟨rfl, (firstDifference_nil_iff.mp h).unique (firstDifference_nil_iff.mp h')⟩
    | cons t q =>
      obtain ⟨x, y, rfl, rfl⟩ := h'.exists_eq_some
      exact ((firstDifference_nil_iff.mp h).not_entered (firstDifference_cons_iff.mp h').1).elim
  | cons s p ih =>
    obtain ⟨x, y, rfl, rfl⟩ := h.exists_eq_some
    obtain ⟨he, hb, hd⟩ := firstDifference_cons_iff.mp h
    cases q with
    | nil => exact ((firstDifference_nil_iff.mp h').not_entered he).elim
    | cons t q =>
      obtain ⟨-, hb', hd'⟩ := firstDifference_cons_iff.mp h'
      rcases he.trichotomy hd.ne_none hd'.ne_none with rfl | hst | hts
      · obtain ⟨rfl, rfl⟩ := ih hd hd'
        exact ⟨rfl, rfl⟩
      · exact (hd.differs.not_rel (rel_along? (hb' s hst) p)).elim
      · exact (hd'.differs.not_rel (rel_along? (hb t hts) q)).elim

end ApiScript.Json
