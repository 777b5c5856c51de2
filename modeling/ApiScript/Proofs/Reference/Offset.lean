import ApiScript.Proofs.Reference.Grammar
import Mathlib.Data.String.Basic

/-! # Reading at bytes

A text is cut at bytes, where a character begins or the text ends; at any other byte the cut fails.
A reference is located by such cuts, from the byte of its opening brace to the byte behind the
closing one. No cut fails, and what is located is what is read.
-/

namespace ApiScript

open String (utf8Len)

namespace Bytes

variable {cs before after part : List Char} {n start stop : Nat}

/-! ## Cuts -/

/-- What stands before a byte, and what from there on, unless the byte lies within a character or
behind the end. -/
def split? : Nat → List Char → Option (List Char × List Char)
  | 0, cs => some ([], cs)
  | _ + 1, [] => none
  | n + 1, c :: cs =>
    if c.utf8Size ≤ n + 1 then
      (split? (n + 1 - c.utf8Size) cs).map fun (before, after) => (c :: before, after)
    else none

def from? (cs : List Char) (start : Nat) : Option (List Char) := (split? start cs).map (·.2)

def slice? (cs : List Char) (start stop : Nat) : Option (List Char) :=
  if start ≤ stop then
    (from? cs start).bind fun rest => (split? (stop - start) rest).map (·.1)
  else none

theorem split?_eq_some_iff :
    split? n cs = some (before, after) ↔ cs = before ++ after ∧ utf8Len before = n := by
  fun_induction split? n cs generalizing before after with
  | case1 cs =>
    rw [String.utf8Len_eq_zero]
    constructor
    · intro h
      cases h
      exact ⟨rfl, rfl⟩
    · rintro ⟨rfl, rfl⟩
      rfl
  | case2 n =>
    refine ⟨nofun, ?_⟩
    rintro ⟨h, hn⟩
    rw [(List.append_eq_nil_iff.mp h.symm).1] at hn
    cases hn
  | case3 n c cs hc ih =>
    rw [Option.map_eq_some_iff]
    constructor
    · rintro ⟨⟨before', after'⟩, h, he⟩
      cases he
      obtain ⟨rfl, hn⟩ := ih.mp h
      exact ⟨rfl, by rw [String.utf8Len_cons]; omega⟩
    · rintro ⟨h, hn⟩
      cases before with
      | nil => cases hn
      | cons b before =>
        obtain ⟨rfl, rfl⟩ := List.cons.inj h
        rw [String.utf8Len_cons] at hn
        exact ⟨(before, after), ih.mpr ⟨rfl, by omega⟩, rfl⟩
  | case4 n c cs hc =>
    refine ⟨nofun, ?_⟩
    rintro ⟨h, hn⟩
    cases before with
    | nil => cases hn
    | cons b before =>
      obtain ⟨rfl, -⟩ := List.cons.inj h
      rw [String.utf8Len_cons] at hn
      omega

theorem append_inj {before' after' : List Char} (h : before ++ after = before' ++ after')
    (hn : utf8Len before = utf8Len before') : before = before' ∧ after = after' :=
  Prod.mk.inj (Option.some.inj ((split?_eq_some_iff.mpr ⟨rfl, hn⟩).symm.trans
    (split?_eq_some_iff.mpr ⟨h, rfl⟩)))

theorem from?_eq_some_iff :
    from? cs start = some after ↔ ∃ before, cs = before ++ after ∧ utf8Len before = start := by
  simp only [from?, Option.map_eq_some_iff, Prod.exists, split?_eq_some_iff, exists_eq_right]

theorem from?_zero (cs : List Char) : from? cs 0 = some cs :=
  from?_eq_some_iff.mpr ⟨[], rfl, rfl⟩

theorem from?_append (part : List Char) (h : from? cs start = some (part ++ after)) :
    from? cs (start + utf8Len part) = some after := by
  obtain ⟨before, rfl, rfl⟩ := from?_eq_some_iff.mp h
  exact from?_eq_some_iff.mpr ⟨before ++ part, by simp, by simp⟩

theorem slice?_eq_some_iff : slice? cs start stop = some part ↔ ∃ before after,
    cs = before ++ (part ++ after) ∧ utf8Len before = start ∧
      start + utf8Len part = stop := by
  unfold slice?
  split
  · simp only [Option.bind_eq_some_iff, Option.map_eq_some_iff, Prod.exists, from?_eq_some_iff,
      split?_eq_some_iff]
    constructor
    · rintro ⟨_, ⟨before, rfl, hn⟩, _, after, ⟨rfl, hp⟩, rfl⟩
      exact ⟨before, after, rfl, hn, by omega⟩
    · rintro ⟨before, after, rfl, hn, hp⟩
      exact ⟨_, ⟨before, rfl, hn⟩, part, after, ⟨rfl, by omega⟩, rfl⟩
  · refine ⟨nofun, ?_⟩
    rintro ⟨before, after, -, -, hp⟩
    omega

theorem slice?_of_from? (h : from? cs start = some (part ++ after)) :
    slice? cs start (start + utf8Len part) = some part := by
  obtain ⟨before, rfl, hn⟩ := from?_eq_some_iff.mp h
  exact slice?_eq_some_iff.mpr ⟨before, after, rfl, hn, rfl⟩

/-! ## Searches -/

def find? (test : Char → Bool) : List Char → Option Nat
  | [] => none
  | c :: cs => if test c then some 0 else (find? test cs).map (· + c.utf8Size)

theorem find?_eq_none {test : Char → Bool} (h : find? test cs = none) :
    ∀ c ∈ cs, test c = false := by
  induction cs with
  | nil => exact nofun
  | cons c cs ih =>
    rw [find?] at h
    split at h
    · cases h
    · rename_i hc
      exact List.forall_mem_cons.mpr
        ⟨Bool.eq_false_of_not_eq_true hc, ih (Option.map_eq_none_iff.mp h)⟩

theorem exists_of_find? {test : Char → Bool} (h : find? test cs = some n) : ∃ before c after,
    cs = before ++ c :: after ∧ utf8Len before = n ∧ test c = true ∧
      ∀ b ∈ before, test b = false := by
  induction cs generalizing n with
  | nil => cases h
  | cons c cs ih =>
    rw [find?] at h
    split at h
    · rename_i hc
      cases h
      exact ⟨[], c, cs, rfl, rfl, hc, nofun⟩
    · rename_i hc
      obtain ⟨m, hm, rfl⟩ := Option.map_eq_some_iff.mp h
      obtain ⟨before, d, after, rfl, rfl, hd, hb⟩ := ih hm
      exact ⟨c :: before, d, after, rfl, rfl, hd,
        List.forall_mem_cons.mpr ⟨Bool.eq_false_of_not_eq_true hc, hb⟩⟩

theorem find?_not_getD (p : Char → Bool) (cs : List Char) :
    (find? (fun c => !p c) cs).getD (utf8Len cs) = utf8Len (cs.takeWhile p) := by
  induction cs with
  | nil => rfl
  | cons c cs ih =>
    cases hp : p c with
    | false => simp [find?, hp]
    | true =>
      rw [List.takeWhile_cons_of_pos hp, String.utf8Len_cons, String.utf8Len_cons, ← ih, find?, hp]
      cases find? (fun c => !p c) cs <;> rfl

end Bytes

namespace Reference

open Bytes

variable {text cs : List Char} {start stop : Nat} {r : Reference}

/-! ## Locating a reference -/

def closing? (depth : Nat) : List Char → Option Nat
  | [] => none
  | c :: cs =>
    if c = '{' then (closing? (depth + 1) cs).map (· + c.utf8Size)
    else if c = '}' then
      if depth - 1 = 0 then some 0 else (closing? (depth - 1) cs).map (· + c.utf8Size)
    else (closing? depth cs).map (· + c.utf8Size)

def locateAfter? (text name : List Char) (after : Nat) : Option (Option (Reference × Nat)) := do
  match ← from? text after with
  | '}' :: _ => return some (⟨name, none⟩, after + 1)
  | '|' :: _ =>
    match closing? 1 (← from? text (after + 1)) with
    | none => return none
    | some offset =>
      let alt ← slice? text (after + 1) (after + 1 + offset)
      return some (⟨name, some alt⟩, after + 1 + offset + 1)
  | _ => return none

/-- Reads the reference whose opening brace stands at a byte, and gives the byte behind its closing
one. There is no result only if a cut fails. -/
def locate? (text : List Char) (start : Nat) : Option (Option (Reference × Nat)) := do
  let rest ← from? text (start + 1)
  let size := (find? (fun c => !isNameChar c) rest).getD (utf8Len rest)
  if size = 0 then return none
  let name ← slice? rest 0 size
  locateAfter? text name (start + 1 + size)

theorem closing?_cons {depth : Nat} {c : Char} (h : depth = 0 → c ≠ '}') :
    closing? (depth + 1) (c :: cs) =
      (closing? ((if c = '{' then depth + 1 else if c = '}' then depth - 1 else depth) + 1) cs).map
        (· + c.utf8Size) := by
  rw [closing?]
  split
  · rfl
  · split
    · rename_i hc
      have hd : depth ≠ 0 := fun hd => h hd hc
      rw [Nat.add_sub_cancel, if_neg hd, Nat.sub_add_cancel (Nat.pos_of_ne_zero hd)]
    · rfl

theorem closing?_eq (depth : Nat) (cs : List Char) :
    closing? (depth + 1) cs = (splitAtClosing depth cs).map fun split => utf8Len split.1 := by
  fun_induction splitAtClosing depth cs with
  | case1 => rfl
  | case2 cs => simp [closing?]
  | case3 depth c cs hd inner hn =>
    rename_i ih
    rw [closing?_cons hd, ih, hn]
    rfl
  | case4 depth c cs hd inner start rest hs =>
    rename_i ih
    rw [closing?_cons hd, ih, hs]
    rfl

theorem utf8Size_mark {c : Char} (h : c ∈ ['{', '}', '|']) : c.utf8Size = 1 := by
  simp only [List.mem_cons, List.not_mem_nil, or_false] at h
  rcases h with rfl | rfl | rfl <;> rfl

theorem utf8Len_written (r : Reference) : utf8Len r.written =
    utf8Len r.name + 2 + (r.alt.map fun alt => utf8Len alt + 1).getD 0 := by
  unfold written
  cases r.alt with
  | none => simp [utf8Size_mark]
  | some alt =>
    simp [utf8Size_mark]
    omega

theorem locateAfter?_eq {name : List Char}
    (h : from? text (start + 1 + utf8Len name) = some cs) :
    locateAfter? text name (start + 1 + utf8Len name) =
      some ((afterName? name cs).map fun found => (found.1, start + utf8Len found.1.written)) := by
  simp only [locateAfter?, h, Option.bind_eq_bind, Option.bind_some]
  fun_cases afterName? name cs with
  | case1 rest =>
    simp [utf8Len_written]
    omega
  | case2 rest hs =>
    have hbar : from? text (start + 1 + utf8Len name + 1) = some rest := from?_append ['|'] h
    simp only [hbar, Option.bind_some, closing?_eq, hs]
    rfl
  | case3 rest alt after hs =>
    obtain ⟨rfl, -⟩ := splitAtClosing_eq_some_iff.mp hs
    have hbar : from? text (start + 1 + utf8Len name + 1) = some (alt ++ '}' :: after) :=
      from?_append ['|'] h
    simp only [hbar, Option.bind_some, closing?_eq, hs, Option.map_some, slice?_of_from? hbar]
    simp [utf8Len_written]
    omega
  | case4 cs hc hb =>
    split
    · exact (hc _ rfl).elim
    · exact (hb _ rfl).elim
    · rfl

/-- What is located at a brace is what is read there. -/
theorem locate?_eq (h : from? text start = some ('{' :: cs)) : locate? text start =
    some ((read? cs).map fun found => (found.1, start + utf8Len found.1.written)) := by
  have hbrace : from? text (start + 1) = some cs := from?_append ['{'] h
  have hcs := List.takeWhile_append_dropWhile (p := isNameChar) (l := cs)
  have hname : slice? cs 0 (utf8Len (cs.takeWhile isNameChar)) = some (cs.takeWhile isNameChar) :=
    slice?_eq_some_iff.mpr ⟨[], cs.dropWhile isNameChar, hcs.symm, rfl, Nat.zero_add _⟩
  have hafter := locateAfter?_eq (from?_append (cs.takeWhile isNameChar) (hcs.symm ▸ hbrace))
  simp only [locate?, hbrace, Option.bind_eq_bind, Option.bind_some, find?_not_getD, hname, hafter,
    read?, String.utf8Len_eq_zero, List.isEmpty_iff]
  split <;> rfl

/-! ## What is located -/

/-- A reference is written in a text from one byte up to another. -/
structure Located (text : List Char) (start stop : Nat) (r : Reference) : Prop where
  wellFormed : r.WellFormed
  slice : slice? text start stop = some r.written

theorem located_iff (h : from? text start = some ('{' :: cs)) : Located text start stop r ↔
    ∃ rest, read? cs = some (r, rest) ∧ start + utf8Len r.written = stop := by
  obtain ⟨before, rfl, rfl⟩ := from?_eq_some_iff.mp h
  constructor
  · rintro ⟨hr, hs⟩
    obtain ⟨before', rest, he, hn, hstop⟩ := slice?_eq_some_iff.mp hs
    obtain ⟨rfl, hcs⟩ := Bytes.append_inj he hn.symm
    exact ⟨rest, read?_eq_some_iff.mpr ⟨hcs, hr⟩, hstop⟩
  · rintro ⟨rest, hread, hstop⟩
    obtain ⟨hcs, hr⟩ := read?_eq_some_iff.mp hread
    exact ⟨hr, slice?_eq_some_iff.mpr ⟨before, rest, by rw [hcs], rfl, hstop⟩⟩

/-- At a brace the reference is located that is written there. -/
theorem locate?_eq_some_iff (h : from? text start = some ('{' :: cs)) :
    locate? text start = some (some (r, stop)) ↔ Located text start stop r := by
  rw [locate?_eq h, Option.some_inj, Option.map_eq_some_iff, located_iff h]
  simp only [Prod.exists, Prod.mk.injEq]
  constructor
  · rintro ⟨_, rest, hread, rfl, hstop⟩
    exact ⟨rest, hread, hstop⟩
  · rintro ⟨rest, hread, hstop⟩
    exact ⟨r, rest, hread, rfl, hstop⟩

theorem Located.start_lt_stop (h : Located text start stop r) : start < stop := by
  obtain ⟨before, after, -, -, rfl⟩ := slice?_eq_some_iff.mp h.slice
  rw [utf8Len_written]
  omega

theorem Located.alt_lt {alt : List Char} (h : Located text start stop r) (ha : r.alt = some alt) :
    utf8Len alt < stop - start := by
  obtain ⟨before, after, -, -, rfl⟩ := slice?_eq_some_iff.mp h.slice
  rw [utf8Len_written, ha, Option.map_some, Option.getD_some]
  omega

theorem Located.stop_le (h : Located text start stop r) : stop ≤ utf8Len text := by
  obtain ⟨before, after, rfl, rfl, rfl⟩ := slice?_eq_some_iff.mp h.slice
  rw [String.utf8Len_append, String.utf8Len_append]
  omega

theorem Located.valid {text : String} (h : Located text.toList start stop r) :
    String.Pos.Raw.Valid text ⟨start⟩ ∧ String.Pos.Raw.Valid text ⟨stop⟩ := by
  obtain ⟨before, after, he, rfl, rfl⟩ := slice?_eq_some_iff.mp h.slice
  exact ⟨.intro ⟨before, r.written ++ after, he.symm, rfl⟩,
    .intro ⟨before ++ r.written, after, by rw [he, List.append_assoc], by simp⟩⟩

end Reference

end ApiScript
