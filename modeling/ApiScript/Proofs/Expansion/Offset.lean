import ApiScript.Proofs.Expansion.Boundary
import ApiScript.Proofs.Reference.Offset

/-! # Expanding by cuts

A text is expanded from one opening brace to the next: what stands before the brace is cut out, a
reference is located at it, and the text goes on behind the reference, or behind the brace if none
is written there. No cut fails.
-/

namespace ApiScript

open String (utf8Len)
open Bytes Reference

variable {text rest : List Char} {pos : Nat} {r : Reference}

namespace Expansion

/-! ## From brace to brace -/

/-- What a text shows first: all of it, without a brace that opens; or what stands before such a
brace, with the byte behind the brace; or what stands before a reference, with its bytes. -/
inductive Piece where
  | rest (plain : List Char)
  | brace (plain : List Char) (next : Nat)
  | reference (plain : List Char) (r : Reference) (start stop : Nat)

/-- What a text shows first from a byte on. Without a result, a cut has failed. -/
def piece? (text : List Char) (pos : Nat) : Option Piece := do
  let rest ← from? text pos
  match find? (· == '{') rest with
  | none => return .rest rest
  | some offset =>
    let plain ← slice? text pos (pos + offset)
    match ← locate? text (pos + offset) with
    | none => return .brace plain (pos + offset + 1)
    | some (r, stop) => return .reference plain r (pos + offset) stop

/-- What a piece says of the text that is left at a byte. -/
inductive Piece.Shows (text : List Char) (pos : Nat) : List Char → Piece → Prop where
  | rest {plain : List Char} : '{' ∉ plain → Shows text pos plain (.rest plain)
  | brace {plain cs : List Char} {next : Nat} : '{' ∉ plain → ¬ Begins ('{' :: cs) →
      pos < next → from? text next = some cs →
      Shows text pos (plain ++ '{' :: cs) (.brace plain next)
  | reference {plain cs : List Char} {r : Reference} {start stop : Nat} : '{' ∉ plain →
      pos ≤ start → Located text start stop r → from? text stop = some cs →
      Shows text pos (plain ++ (r.written ++ cs)) (.reference plain r start stop)

theorem exists_piece? (h : from? text pos = some rest) :
    ∃ piece, piece? text pos = some piece ∧ piece.Shows text pos rest := by
  simp only [piece?, h, Option.bind_eq_bind, Option.bind_some]
  cases hbrace : find? (· == '{') rest with
  | none =>
    have hplain : '{' ∉ rest := fun hm => by simpa using find?_eq_none hbrace _ hm
    exact ⟨_, rfl, .rest hplain⟩
  | some offset =>
    obtain ⟨plain, c, cs, rfl, rfl, hc, hplain⟩ := exists_of_find? hbrace
    obtain rfl : c = '{' := by simpa using hc
    have hplain : '{' ∉ plain := fun hm => by simpa using hplain _ hm
    have hat : from? text (pos + utf8Len plain) = some ('{' :: cs) := from?_append plain h
    simp only [slice?_of_from? h, locate?_eq hat, Option.bind_some]
    cases hread : read? cs with
    | none =>
      refine ⟨_, rfl, .brace hplain (fun hb => begins_iff.mp hb hread) (by omega) ?_⟩
      exact from?_append ['{'] hat
    | some found =>
      obtain ⟨r, after⟩ := found
      have hr : Located text (pos + utf8Len plain) (pos + utf8Len plain + utf8Len r.written) r :=
        (located_iff hat).mpr ⟨after, hread, rfl⟩
      rw [(read?_eq_some_iff.mp hread).1] at hat ⊢
      exact ⟨_, rfl, .reference hplain (by omega) hr (from?_append r.written hat)⟩

theorem exists_shows {piece : Piece} (h : piece? text pos = some piece) :
    ∃ rest, from? text pos = some rest ∧ piece.Shows text pos rest := by
  obtain ⟨rest, hrest, -⟩ := Option.bind_eq_some_iff.mp h
  obtain ⟨piece', hpiece, hshows⟩ := exists_piece? hrest
  cases h.symm.trans hpiece
  exact ⟨rest, hrest, hshows⟩

theorem le_of_from? (h : from? text pos = some rest) : pos ≤ utf8Len text := by
  obtain ⟨before, rfl, rfl⟩ := from?_eq_some_iff.mp h
  simp

theorem lt_of_brace {plain : List Char} {next : Nat}
    (h : piece? text pos = some (.brace plain next)) : pos < next ∧ next ≤ utf8Len text := by
  obtain ⟨rest, -, hshows⟩ := exists_shows h
  cases hshows with
  | brace _ _ hlt hnext => exact ⟨hlt, le_of_from? hnext⟩

theorem lt_of_reference {plain : List Char} {start stop : Nat}
    (h : piece? text pos = some (.reference plain r start stop)) :
    pos < stop ∧ stop ≤ utf8Len text ∧ ∀ alt, r.alt = some alt → utf8Len alt < stop - pos := by
  obtain ⟨rest, -, hshows⟩ := exists_shows h
  cases hshows with
  | reference _ hle hr hnext =>
    refine ⟨hle.trans_lt hr.start_lt_stop, hr.stop_le, fun alt ha => ?_⟩
    exact (hr.alt_lt ha).trans_le (Nat.sub_le_sub_left hle stop)

end Expansion

namespace Environment

open Expansion

def lookupCut? (env : Environment) (name : List Char) : Option (Option Json) :=
  if CodePoint.isName name then
    (from? name 2).map fun digits =>
      ((naturalOf? 16 digits).bind CodePoint.charOf?).map fun c => .string (String.ofList [c])
  else some (env.get? (String.ofList name))

/-- Expands a text from a byte on. Without a result, a cut has failed. -/
def expandFrom? (env : Environment) (text : List Char) (pos : Nat) : Option (List Char) := do
  match hpiece : piece? text pos with
  | none => none
  | some (.rest plain) => return plain
  | some (.brace plain next) =>
    have := lt_of_brace hpiece
    return plain ++ '{' :: (← expandFrom? env text next)
  | some (.reference plain r start stop) =>
    have hlt := lt_of_reference hpiece
    let shown ←
      match ← env.lookupCut? r.name with
      | some v => some v.asText.toList
      | none =>
        match ha : r.alt with
        | some alt =>
          have := hlt.2.2 alt ha
          expandFrom? env alt 0
        | none => slice? text start stop
    return plain ++ (shown ++ (← expandFrom? env text stop))
termination_by utf8Len text - pos

def nodeCut? (text : List Char) : Option (Option Reference) :=
  match trimBlanks text with
  | '{' :: cs =>
    (locate? ('{' :: cs) 0).map fun found =>
      found.bind fun (r, stop) => if stop = utf8Len ('{' :: cs) then some r else none
  | _ => some none

theorem nodeCut?_eq (text : List Char) : nodeCut? text = some (ofNode? text) := by
  unfold nodeCut?
  split
  · rename_i cs ht
    rw [locate?_eq rfl, Option.map_some, ofNode?, ht]
    cases hread : read? cs with
    | none => simp [hread]
    | some found =>
      obtain ⟨r, rest⟩ := found
      have hend : 0 + utf8Len r.written = utf8Len ('{' :: cs) ↔ rest = [] := by
        rw [(read?_eq_some_iff.mp hread).1, String.utf8Len_append, ← String.utf8Len_eq_zero]
        omega
      simp only [hread, Option.map_some, Option.bind_some, hend]
      cases rest <;> rfl
  · rename_i hne
    have hnone : ofNode? text = none := by
      refine Option.eq_none_iff_forall_ne_some.mpr fun r hr => ?_
      obtain ⟨cs, hw⟩ := r.written_eq_cons
      exact hne cs ((ofNode?_eq_some_iff.mp hr).1.trans hw)
    rw [hnone]

def valueCut? (env : Environment) (text : List Char) : Option (Option Json) := do
  match hnode : nodeCut? text with
  | none => none
  | some none => return none
  | some (some r) =>
    have hr := Option.some.inj ((nodeCut?_eq text).symm.trans hnode)
    match ← env.lookupCut? r.name with
    | some v => return some v
    | none =>
      match ha : r.alt with
      | none => return none
      | some alt =>
        have := length_alt_lt_of_ofNode? hr ha
        match ← valueCut? env alt with
        | some v => return some v
        | none => return some (.string (String.ofList (← env.expandFrom? alt 0)))
termination_by text.length

theorem lookupCut?_eq (env : Environment) (name : List Char) :
    env.lookupCut? name = some (env.lookup name) := by
  unfold lookupCut? lookup
  split
  · rename_i hn
    obtain ⟨digits, hname, hd⟩ := CodePoint.isName_iff.mp hn
    have hcut : from? name 2 = some digits := by
      rcases hname with rfl | rfl
      · exact from?_eq_some_iff.mpr ⟨['U', '+'], rfl, by decide⟩
      · exact from?_eq_some_iff.mpr ⟨['u', '+'], rfl, by decide⟩
    rw [hcut, CodePoint.char?, CodePoint.digits?_eq_some_iff.mpr ⟨hname, hd⟩]
    rfl
  · rfl

theorem expandFrom?_eq (env : Environment) (h : from? text pos = some rest) :
    env.expandFrom? text pos = some (chars env.lookup rest) := by
  induction hn : rest.length using Nat.strong_induction_on generalizing text pos rest with
  | _ n ih =>
    subst hn
    rw [expandFrom?]
    obtain ⟨piece, hpiece, hshows⟩ := exists_piece? h
    split
    · rename_i hnone
      cases hnone.symm.trans hpiece
    · rename_i plain hrest
      cases hrest.symm.trans hpiece
      cases hshows with
      | rest hplain =>
        rw [chars_of_notMem hplain]
        rfl
    · rename_i plain next hbrace
      cases hbrace.symm.trans hpiece
      cases hshows with
      | @brace _ cs _ hplain hb _ hnext =>
        have hlt : cs.length < (plain ++ '{' :: cs).length := by simp; omega
        rw [ih _ hlt hnext rfl, chars_append (braceClosed_of_notMem hplain),
          chars_of_notMem hplain, chars_plain hb]
        rfl
    · rename_i plain r start stop hreference
      cases hreference.symm.trans hpiece
      cases hshows with
      | @reference _ cs _ _ _ hplain _ hr hnext =>
        have hlt : cs.length < (plain ++ (r.written ++ cs)).length := by
          obtain ⟨inside, hw⟩ := r.written_eq_cons
          simp [hw]
          omega
        rw [chars_append (braceClosed_of_notMem hplain), chars_of_notMem hplain,
          chars_reference hr.wellFormed, lookupCut?_eq, ih _ hlt hnext rfl, ofReference]
        simp only [Option.bind_eq_bind, Option.bind_some, hr.slice]
        cases hl : env.lookup r.name with
        | some v => rfl
        | none =>
          dsimp only
          split
          · rename_i alt ha
            have halt : alt.length < (plain ++ (r.written ++ cs)).length := by
              simp [written, ha]
              omega
            rw [ha, ih _ halt (from?_zero alt) rfl]
            rfl
          · rename_i ha
            rw [ha]
            rfl

theorem valueCut?_eq (env : Environment) (text : List Char) :
    env.valueCut? text = some (Expansion.nodeValue? env.lookup text) := by
  induction hn : text.length using Nat.strong_induction_on generalizing text with
  | _ n ih =>
    subst hn
    rw [valueCut?]
    split
    · rename_i hfail
      cases hfail.symm.trans (nodeCut?_eq text)
    · rename_i hnone
      rw [Expansion.nodeValue?_of_none (Option.some.inj ((nodeCut?_eq text).symm.trans hnone))]
      rfl
    · rename_i r hnode
      have hr := Option.some.inj ((nodeCut?_eq text).symm.trans hnode)
      rw [Expansion.nodeValue?_of_some hr, lookupCut?_eq]
      cases hl : env.lookup r.name with
      | some v => rfl
      | none =>
        simp only [Option.bind_eq_bind, Option.bind_some]
        split
        · rename_i ha
          rw [ha]
          rfl
        · rename_i alt ha
          rw [ha, ih alt.length (length_alt_lt_of_ofNode? hr ha) alt rfl,
            expandFrom?_eq env (from?_zero alt)]
          cases hv : Expansion.nodeValue? env.lookup alt <;> simp [hv]

theorem isValueNode_iff {text : String} : isValueNode text = true ↔
    ∃ r : Reference, r.WellFormed ∧ trimBlanks text.toList = r.written := by
  simp only [isValueNode, Option.isSome_iff_exists, ofNode?_eq_some_iff, and_comm]

/-- At a brace of a text the reference is located that is written there, or nothing if none is.
There is one at most, its bytes are those of characters, and its alternative is shorter than it. No
cut fails by which a text is expanded or by which the value of a text that consists of a reference
is taken. Such a text is a reference as a whole, but for white space around it. -/
theorem locates_written (env : Environment) (text : String) :
    (∀ start cs, from? text.toList start = some ('{' :: cs) →
      locate? text.toList start =
        some ((read? cs).map fun found => (found.1, start + utf8Len found.1.written)) ∧
      (∀ r stop, locate? text.toList start = some (some (r, stop)) ↔
        Located text.toList start stop r) ∧
      (locate? text.toList start = some none ↔ ∀ r stop, ¬ Located text.toList start stop r) ∧
      ∀ r stop, Located text.toList start stop r →
        (∀ r' stop', Located text.toList start stop' r' → r' = r ∧ stop' = stop) ∧
        String.Pos.Raw.Valid text ⟨start⟩ ∧ String.Pos.Raw.Valid text ⟨stop⟩ ∧
        ∀ alt, r.alt = some alt → utf8Len alt < stop - start) ∧
    env.expandFrom? text.toList 0 = some (env.expand text).toList ∧
    env.valueCut? text.toList = some (env.nodeValue? text) ∧
    (isValueNode text = true ↔
      ∃ r : Reference, r.WellFormed ∧ trimBlanks text.toList = r.written) := by
  refine ⟨fun start cs h => ?_, ?_, valueCut?_eq env text.toList, isValueNode_iff⟩
  · have hiff (r stop) : locate? text.toList start = some (some (r, stop)) ↔
        Located text.toList start stop r := locate?_eq_some_iff h
    refine ⟨locate?_eq h, hiff, ?_, fun r stop hr => ⟨fun r' stop' hr' => ?_, hr.valid.1,
      hr.valid.2, fun alt ha => hr.alt_lt ha⟩⟩
    · simp only [← hiff, locate?_eq h, Option.some_inj]
      cases read? cs <;> simp
    · have he := ((hiff r' stop').mpr hr').symm.trans ((hiff r stop).mpr hr)
      exact Prod.mk.inj (Option.some.inj (Option.some.inj he))
  · rw [expandFrom?_eq env (from?_zero _), expand, String.toList_ofList]

theorem locates_written_twice :
    let text := "é\x7bx|ÿ\x7dz\x7by"
    from? text.toList 2 = some "\x7bx|ÿ\x7dz\x7by".toList ∧
      Located text.toList 2 8 ⟨['x'], some ['ÿ']⟩ ∧
      String.Pos.Raw.Valid text ⟨8⟩ ∧
      from? text.toList 9 = some "\x7by".toList ∧
      (∀ r stop, ¬ Located text.toList 9 stop r) ∧
      empty.expandFrom? text.toList 0 = some "éÿz\x7by".toList := by
  intro text
  obtain ⟨hat, hexpand, -⟩ := locates_written empty text
  have h₂ : from? text.toList 2 = some "\x7bx|ÿ\x7dz\x7by".toList := by decide
  have h₉ : from? text.toList 9 = some "\x7by".toList := by decide
  obtain ⟨-, hiff, -, hlocated⟩ := hat 2 _ h₂
  obtain ⟨-, -, hnone, -⟩ := hat 9 _ h₉
  have hr : Located text.toList 2 8 ⟨['x'], some ['ÿ']⟩ := (hiff _ _).mp (by decide)
  have htext : empty.expand text = "éÿz\x7by" := by decide +kernel
  exact ⟨h₂, hr, (hlocated _ _ hr).2.2.1, h₉, hnone.mp (by decide), by rw [hexpand, htext]⟩

end Environment

end ApiScript
