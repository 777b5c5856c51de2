import ApiScript.Json.Path
import ApiScript.Proofs.Json.Equality
import ApiScript.Proofs.Text.Integer
import Mathlib.Data.List.Forall2

/-! # What dotted paths lead to

A path leads from part to part, by a name where it meets an object and by a number where it meets a
list. It can be cut at each of its dots, and more dots than one between two segments say no more.
-/

namespace ApiScript

namespace JsonPath

variable {cs ds segment : List Char} {parts rest : List (List Char)} {v w : Json}

/-! ## Segments -/

theorem splitDots_eq_splitOn (cs : List Char) : splitDots cs = cs.splitOn '.' := by
  induction cs with
  | nil => rfl
  | cons c cs ih =>
    rw [splitDots, List.splitOn_cons_eq_if_modifyHead, ih]
    simp only [beq_iff_eq]
    obtain ⟨part, parts, he⟩ := List.exists_cons_of_ne_nil (List.splitOn_ne_nil '.' cs)
    rw [he]
    rfl

theorem segments_eq (cs : List Char) : segments cs = (cs.splitOn '.').filter (· ≠ []) := by
  rw [segments, splitDots_eq_splitOn]
  refine List.filter_congr fun part _ => ?_
  cases part <;> rfl

theorem segments_append_dot (cs ds : List Char) :
    segments (cs ++ '.' :: ds) = segments cs ++ segments ds := by
  simp only [segments_eq, List.splitOn_append_cons_self, List.filter_append]

theorem segments_dots_append (n : Nat) (ds : List Char) :
    segments (List.replicate n '.' ++ ds) = segments ds := by
  induction n with
  | zero => rfl
  | succ n ih => exact (segments_append_dot [] _).trans ih

theorem segments_append_dots (cs ds : List Char) (n : Nat) :
    segments (cs ++ (List.replicate (n + 1) '.' ++ ds)) = segments cs ++ segments ds := by
  rw [List.replicate_succ, List.cons_append, segments_append_dot, segments_dots_append]

theorem segments_append_trailing (cs : List Char) (n : Nat) :
    segments (cs ++ List.replicate n '.') = segments cs := by
  cases n with
  | zero => rw [List.replicate_zero, List.append_nil]
  | succ n =>
    have h := segments_append_dots cs [] n
    rwa [List.append_nil, show segments [] = [] from rfl, List.append_nil] at h

theorem segments_intercalate (h : ∀ part ∈ parts, part ≠ [] ∧ '.' ∉ part) :
    segments (['.'].intercalate parts) = parts := by
  cases parts with
  | nil => rfl
  | cons part rest =>
    rw [segments_eq, List.splitOn_intercalate '.' (fun s hs => (h s hs).2) (List.cons_ne_nil _ _),
      List.filter_eq_self]
    intro s hs
    simpa using (h s hs).1

/-! ## Following segments -/

theorem follow?_append (xs ys : List (List Char)) (v : Json) :
    follow? (xs ++ ys) v = (follow? xs v).bind (follow? ys) := by
  induction xs generalizing v with
  | nil => rfl
  | cons segment xs ih =>
    rw [List.cons_append, follow?, follow?, Option.bind_assoc]
    exact Option.bind_congr fun w _ => ih w

/-- A segment spells a step: a name as it is, a position as a number of 64 bits. -/
inductive Spells : List Char → Json.Step → Prop where
  | key (name : String) : Spells name.toList (.key name)
  | index {segment : List Char} {i : Nat} : InDecimal segment i → i < 2 ^ 64 →
      Spells segment (.index i)

/-- What a segment means depends on the value that it meets. -/
theorem step?_eq_some_iff :
    step? segment v = some w ↔ ∃ s, Spells segment s ∧ Json.part? s v = some w := by
  unfold step?
  constructor
  · intro h
    split at h
    · refine ⟨.key (String.ofList segment), ?_, h⟩
      have hw := Spells.key (String.ofList segment)
      rwa [String.toList_ofList] at hw
    · obtain ⟨i, hi, h⟩ := Option.bind_eq_some_iff.mp h
      obtain ⟨hd, hlt⟩ := unsignedOf?_ten_eq_some_iff.mp hi
      exact ⟨.index i, .index hd hlt, h⟩
    · cases h
  · rintro ⟨s, hs, h⟩
    cases hs with
    | key name =>
      cases v with
      | object fields => rwa [String.ofList_toList]
      | _ => cases h
    | index hd hlt =>
      cases v with
      | array items =>
        exact Option.bind_eq_some_iff.mpr ⟨_, unsignedOf?_ten_eq_some_iff.mpr ⟨hd, hlt⟩, h⟩
      | _ => cases h

theorem follow?_eq_some_iff : follow? parts v = some w ↔
    ∃ steps, List.Forall₂ Spells parts steps ∧ Json.along? steps (some v) = some w := by
  induction parts generalizing v with
  | nil =>
    simp only [List.forall₂_nil_left_iff, exists_eq_left]
    exact Iff.rfl
  | cons segment parts ih =>
    rw [follow?, Option.bind_eq_some_iff]
    constructor
    · rintro ⟨x, hx, h⟩
      obtain ⟨s, hs, hp⟩ := step?_eq_some_iff.mp hx
      obtain ⟨steps, hsteps, h⟩ := ih.mp h
      refine ⟨s :: steps, .cons hs hsteps, ?_⟩
      rw [Json.along?, Option.bind_some, hp, h]
    · rintro ⟨_, hsteps, h⟩
      cases hsteps with
      | @cons _ s _ steps hs hsteps =>
        rw [Json.along?, Option.bind_some] at h
        cases hp : Json.part? s v with
        | none =>
          rw [hp, Json.along?_none] at h
          cases h
        | some x =>
          rw [hp] at h
          exact ⟨x, step?_eq_some_iff.mpr ⟨s, hs, hp⟩, ih.mpr ⟨steps, hsteps, h⟩⟩

end JsonPath

namespace Json

open JsonPath

def Step.segment : Step → String
  | .key name => name
  | .index i => toString i

/-- A path can name a step: a name that is not empty and has no dot, or a position of 64 bits. -/
def Step.Nameable : Step → Prop
  | .key name => name ≠ "" ∧ '.' ∉ name.toList
  | .index i => i < 2 ^ 64

variable {s : Step} {steps : List Step} {v w : Json}

theorem Step.Nameable.spells (h : s.Nameable) : Spells s.segment.toList s := by
  cases s with
  | key name => exact .key name
  | index i =>
    refine .index ?_ h
    rw [segment, Nat.toString_eq_ofList_toDigits, String.toList_ofList]
    exact inDecimal_toDigits i

theorem Step.Nameable.undivided (h : s.Nameable) :
    s.segment.toList ≠ [] ∧ '.' ∉ s.segment.toList := by
  cases s with
  | key name => exact ⟨String.toList_eq_nil_iff.not.mpr h.1, h.2⟩
  | index i =>
    rw [segment, Nat.toString_eq_ofList_toDigits, String.toList_ofList]
    refine ⟨Nat.toDigits_ne_nil, fun hd => ?_⟩
    exact absurd (Nat.isDigit_of_mem_toDigits (by decide) (by decide) hd) (by decide)

def dotted (steps : List Step) : String := ".".intercalate (steps.map Step.segment)

theorem segments_dotted (h : ∀ s ∈ steps, s.Nameable) :
    segments (dotted steps).toList = steps.map fun s => s.segment.toList := by
  have hp : ∀ part ∈ steps.map fun s => s.segment.toList, part ≠ [] ∧ '.' ∉ part := by
    intro part hpart
    obtain ⟨s, hs, rfl⟩ := List.mem_map.mp hpart
    exact (h s hs).undivided
  rw [dotted, String.toList_intercalate, List.map_map]
  exact segments_intercalate hp

def dots (n : Nat) : String := String.ofList (List.replicate n '.')

theorem at?_eq_some_iff {path : String} : v.at? path = some w ↔
    ∃ steps, List.Forall₂ Spells ((path.toList.splitOn '.').filter (· ≠ [])) steps ∧
      along? steps (some v) = some w := by
  rw [at?, follow?_eq_some_iff, segments_eq]

theorem at?_dotted (h : ∀ s ∈ steps, s.Nameable) (hw : along? steps (some v) = some w) :
    v.at? (dotted steps) = some w := by
  rw [at?, segments_dotted h, follow?_eq_some_iff]
  refine ⟨steps, ?_, hw⟩
  rw [List.forall₂_map_left_iff, List.forall₂_same]
  exact fun s hs => (h s hs).spells

/-- A path leads to a part of a value just if its segments, of which empty ones do not count, spell
steps that lead there. So every part is found at the path of its steps, unless a name on the way is
empty or has a dot. A path that is put together of two leads on with the second from
where the first leads, and dots at its ends and more than one between do not count. -/
theorem path_leads_along (v : Json) :
    (∀ path w, v.at? path = some w ↔
      ∃ steps, List.Forall₂ Spells ((path.toList.splitOn '.').filter (· ≠ [])) steps ∧
        along? steps (some v) = some w) ∧
    (∀ steps w, (∀ s ∈ steps, s.Nameable) → along? steps (some v) = some w →
      v.at? (dotted steps) = some w) ∧
    (∀ p q, v.at? (p ++ "." ++ q) = (v.at? p).bind (at? q)) ∧
    (∀ p q n, v.at? (p ++ dots (n + 1) ++ q) = v.at? (p ++ "." ++ q)) ∧
    ∀ p m n, v.at? (dots m ++ p ++ dots n) = v.at? p := by
  have hjoin (p q : String) (n : Nat) :
      segments (p ++ dots (n + 1) ++ q).toList = segments p.toList ++ segments q.toList := by
    rw [String.toList_append, String.toList_append, dots, String.toList_ofList, List.append_assoc,
      segments_append_dots]
  refine ⟨fun path w => at?_eq_some_iff, fun steps w h hw => at?_dotted h hw, fun p q => ?_,
    fun p q n => ?_, fun p m n => ?_⟩
  · rw [at?, show p ++ "." ++ q = p ++ dots 1 ++ q from rfl, hjoin, follow?_append]
    rfl
  · rw [at?, at?, hjoin, show p ++ "." ++ q = p ++ dots 1 ++ q from rfl, hjoin]
  · rw [at?, at?, String.toList_append, String.toList_append, dots, dots, String.toList_ofList,
      String.toList_ofList, segments_append_trailing, segments_dots_append]

theorem path_leads_along_numeral :
    let v : Json := .object [("a", .array [.null, .object [("1", .bool true)]])]
    let steps : List Step := [.key "a", .index 1, .key "1"]
    (∀ s ∈ steps, s.Nameable) ∧ along? steps (some v) = some (.bool true) ∧
      v.at? "a.1.1" = some (.bool true) ∧
      v.at? (dots 2 ++ "a.+01.1" ++ dots 1) = some (.bool true) ∧
      (v.at? "a.1").bind (at? "1") = some (.bool true) := by
  intro v steps
  obtain ⟨hpath, hdotted, hjoin, -, hends⟩ := path_leads_along v
  have halong : along? steps (some v) = some (.bool true) := rfl
  have hnameable : ∀ s ∈ steps, s.Nameable := by
    simp [steps, Step.Nameable]
  have hfound : v.at? "a.1.1" = some (.bool true) := by
    have h := hdotted steps _ hnameable halong
    rwa [show dotted steps = "a.1.1" by decide] at h
  have hdigits : ∀ d ∈ ['0', '1'], d.isDigit = true := List.all_eq_true.mp rfl
  have hsigned : Spells "+01".toList (.index 1) :=
    .index (.signed (List.cons_ne_nil _ _) hdigits) (by decide)
  refine ⟨hnameable, halong, hfound, ?_, ?_⟩
  · rw [hends]
    exact (hpath _ _).mpr ⟨steps, .cons (.key "a") (.cons hsigned (.cons (.key "1") .nil)), halong⟩
  · rw [← hjoin]
    exact hfound

end Json

end ApiScript
