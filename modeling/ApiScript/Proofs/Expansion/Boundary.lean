import ApiScript.Proofs.Expansion.Basic

/-! # Where a text can be cut

A text in which every brace that opens is closed again can be expanded by itself, whatever follows
it: no reference that begins in it goes on behind it, be it well formed or not.
-/

namespace ApiScript

namespace Reference

/-- Every brace that opens is closed before the text ends. -/
def BraceClosed (cs : List Char) : Prop :=
  ∀ after, '{' :: after <:+ cs →
    ∃ inside rest, after = inside ++ '}' :: rest ∧ Balanced inside

variable {c : Char} {cs ds : List Char}

theorem braceClosed_nil : BraceClosed [] := by
  intro after h
  cases List.suffix_nil.mp h

theorem braceClosed_cons : BraceClosed (c :: cs) ↔
    (c = '{' → ∃ inside rest, cs = inside ++ '}' :: rest ∧ Balanced inside) ∧ BraceClosed cs := by
  constructor
  · intro h
    refine ⟨?_, fun after ha => h after (ha.trans (List.suffix_cons c cs))⟩
    rintro rfl
    exact h cs List.suffix_rfl
  · rintro ⟨hc, hcs⟩ after ha
    rcases List.suffix_cons_iff.mp ha with he | ha
    · obtain ⟨rfl, rfl⟩ := List.cons.inj he
      exact hc rfl
    · exact hcs after ha

theorem BraceClosed.suffix (h : BraceClosed cs) (hs : ds <:+ cs) : BraceClosed ds :=
  fun after ha => h after (ha.trans hs)

theorem braceClosed_of_notMem (h : '{' ∉ cs) : BraceClosed cs :=
  fun _ ha => (h (ha.subset List.mem_cons_self)).elim

def isBraceClosed : List Char → Bool
  | [] => true
  | c :: cs => (c != '{' || (splitAtClosing 0 cs).isSome) && isBraceClosed cs

theorem isBraceClosed_iff : isBraceClosed cs = true ↔ BraceClosed cs := by
  induction cs with
  | nil => simp [isBraceClosed, braceClosed_nil]
  | cons c cs ih =>
    have hs : (splitAtClosing 0 cs).isSome = true ↔
        ∃ inside rest, cs = inside ++ '}' :: rest ∧ Balanced inside := by
      rw [Option.isSome_iff_exists, Prod.exists]
      simp only [splitAtClosing_eq_some_iff]
    rw [isBraceClosed, braceClosed_cons, Bool.and_eq_true, ih, Bool.or_eq_true, hs, bne_iff_ne,
      imp_iff_not_or]

instance : DecidablePred BraceClosed := fun _ => decidable_of_iff _ isBraceClosed_iff

/-- A reference that begins in a closed text is closed by the brace that closes its first one there,
so it ends in that text. -/
theorem BraceClosed.begins (h : BraceClosed (c :: cs)) (hb : Begins (c :: cs ++ ds)) :
    Begins (c :: cs) := by
  obtain ⟨r, rest, hr, he⟩ := hb
  obtain ⟨inside, hinside, hw⟩ := hr.exists_inside
  rw [hw, List.cons_append, List.cons_append] at he
  obtain ⟨rfl, he⟩ := List.cons.inj he
  obtain ⟨within, after, rfl, hwithin⟩ := (braceClosed_cons.mp h).1 rfl
  have hcut : within ++ '}' :: (after ++ ds) = inside ++ '}' :: rest := by simpa using he
  obtain ⟨rfl, -⟩ := closing_unique hwithin hinside hcut
  exact ⟨r, after, hr, by rw [hw]; simp⟩

end Reference

namespace Expansion

open Reference

variable {lookup : List Char → Option Json} {cs ds : List Char}

/-- The induction is on the reading of the first text: none of its steps reaches beyond its end. -/
theorem chars_append (h : BraceClosed cs) (ds : List Char) :
    chars lookup (cs ++ ds) = chars lookup cs ++ chars lookup ds := by
  induction reading cs with
  | nil => rw [chars_nil, List.nil_append, List.nil_append]
  | @plain c cs hb _ ih =>
    have hb' : ¬ Begins (c :: cs ++ ds) := fun hbegins => hb (h.begins hbegins)
    rw [List.cons_append] at hb' ⊢
    rw [chars_plain hb, chars_plain hb', ih (h.suffix (List.suffix_cons c cs)), List.cons_append]
  | @reference r rest hr _ _ _ ih =>
    rw [List.append_assoc, chars_reference hr, chars_reference hr,
      ih (h.suffix (List.suffix_append _ _)), List.append_assoc]

end Expansion

namespace Environment

open Reference

/-- A text in which every brace that opens is closed again is expanded by itself, and what follows
it by itself, whatever that is. So a text without such braces stays as it is before any other. -/
theorem expand_append (env : Environment) (a : String) :
    (BraceClosed a.toList → ∀ b, env.expand (a ++ b) = env.expand a ++ env.expand b) ∧
      ('{' ∉ a.toList → ∀ b, env.expand (a ++ b) = a ++ env.expand b) := by
  have happend (h : BraceClosed a.toList) (b : String) :
      env.expand (a ++ b) = env.expand a ++ env.expand b := by
    rw [expand, String.toList_append, Expansion.chars_append h, String.ofList_append]
    rfl
  refine ⟨happend, fun h b => ?_⟩
  rw [happend (braceClosed_of_notMem h), expand_of_notMem env h]

theorem expand_append_unterminated :
    let env : Environment := ⟨⟨[("x", .string "\x7b")]⟩⟩
    let a := "\x7d\x7b x \x7d\x7by|\x7bx\x7d|\x7d"
    let b := "\x7bx|\x7bx\x7d"
    BraceClosed a.toList ∧ ¬ BraceClosed b.toList ∧
      env.expand a = "\x7d\x7b x \x7d\x7b|" ∧ env.expand b = "\x7bx|\x7b" ∧
      env.expand (a ++ b) = "\x7d\x7b x \x7d\x7b|\x7bx|\x7b" := by
  intro env a b
  have ha : env.expand a = "\x7d\x7b x \x7d\x7b|" := by decide +kernel
  have hb : env.expand b = "\x7bx|\x7b" := by decide +kernel
  have hclosed : BraceClosed a.toList := by decide
  refine ⟨hclosed, by decide, ha, hb, ?_⟩
  rw [(expand_append env a).1 hclosed b, ha, hb]
  rfl

end Environment

end ApiScript
