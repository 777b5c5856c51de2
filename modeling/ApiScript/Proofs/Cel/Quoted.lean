import ApiScript.Proofs.Cel.Alias

/-! # Texts between quotes

A text between quotes is read as it stands, when nothing in it has to be escaped. Second names are
replaced before it is read, so the value of the expression is the text with second names replaced in
it too: it is the text itself just when none stands there.
-/

namespace ApiScript.Cel

variable {cs : List Char} {c : Char}

def IsUnescaped (c : Char) : Prop := c ≠ '"' ∧ c ≠ '\\' ∧ c ≠ '\n' ∧ c ≠ '\r'

instance : DecidablePred IsUnescaped := fun c =>
  inferInstanceAs (Decidable (c ≠ '"' ∧ c ≠ '\\' ∧ c ≠ '\n' ∧ c ≠ '\r'))

namespace Lexer

theorem cooked?_quote : cooked? '"' false ['"'] = some ([], []) := rfl

theorem cooked?_cons (hc : IsUnescaped c) (cs : List Char) :
    cooked? '"' false (c :: cs) = putFirst (chars [c]) (cooked? '"' false cs) := by
  obtain ⟨hquote, hslash, hn, hr⟩ := hc
  rw [cooked?.eq_def]
  split
  case h_7 heq =>
    obtain ⟨rfl, rfl⟩ := List.cons.inj heq
    simp [isEnd, isPlain, hquote, hslash, hn, hr]
  all_goals simp_all

theorem cooked?_unescaped (h : ∀ c ∈ cs, IsUnescaped c) :
    cooked? '"' false (cs ++ ['"']) = some (chars cs, []) := by
  induction cs with
  | nil => exact cooked?_quote
  | cons c cs ih =>
    obtain ⟨hc, hcs⟩ := List.forall_mem_cons.mp h
    rw [List.cons_append, cooked?_cons hc, ih hcs]
    rfl

theorem not_isEnd_triple (h : ∀ c ∈ cs, IsUnescaped c) :
    isEnd '"' true ('"' :: cs ++ ['"']) = false := by
  cases cs with
  | nil => rfl
  | cons c cs =>
    obtain ⟨⟨hquote, -⟩, -⟩ := List.forall_mem_cons.mp h
    simp [isEnd, hquote]

theorem token?_quoted (h : ∀ c ∈ cs, IsUnescaped c) :
    token? ('"' :: cs ++ ['"']) = some (.literal (.string (String.ofList cs)), []) := by
  have hread : quoted? false ('"' :: cs ++ ['"']) = some (chars cs, []) := by
    have hend := not_isEnd_triple h
    rw [List.cons_append] at hend ⊢
    simp [quoted?, hend, cooked?_unescaped h]
  have htext : text? ('"' :: cs ++ ['"']) = some (textOf (chars cs), []) := by
    obtain ⟨b, rest, hb⟩ := List.exists_cons_of_ne_nil (l := cs ++ ['"']) (by simp)
    rw [List.cons_append] at hread ⊢
    rw [hb] at hread ⊢
    simp [text?, hread]
  have hchars : (chars cs).map TextUnit.toChar = cs := by
    simp [chars, Function.comp_def, TextUnit.toChar]
  rw [List.cons_append] at htext ⊢
  rw [token?, htext, textOf, hchars]

end Lexer

theorem tokens_quoted (h : ∀ c ∈ cs, IsUnescaped c) :
    Token.all? (String.ofList ('"' :: cs ++ ['"'])) =
      some [.literal (.string (String.ofList cs))] := by
  have hl : (String.ofList ('"' :: cs ++ ['"'])).length = cs.length + 1 + 1 := by
    rw [String.length_ofList]
    simp
  have htoken := Lexer.token?_quoted h
  rw [List.cons_append] at hl htoken ⊢
  rw [Token.all?, hl, String.toList_ofList, Lexer.tokens?, htoken]
  rfl

theorem ofText?_of_literal {text : String} {l : Literal}
    (h : Token.all? text = some [.literal l]) : Expr.ofText? text = some (.literal l) := by
  rw [Expr.ofText?, h]
  rfl

theorem eval_quoted (h : ∀ c ∈ cs, IsUnescaped c) (env : Environment) :
    ∃ e, Expr.ofText? (String.ofList ('"' :: cs ++ ['"'])) = some e ∧
      eval? (scopeOf env) e = some (.string (String.ofList cs)) :=
  ⟨_, ofText?_of_literal (tokens_quoted h), rfl⟩

theorem isUnescaped_replaceNames (h : ∀ c ∈ cs, IsUnescaped c) :
    ∀ c ∈ replaceNames aliases cs, IsUnescaped c := by
  intro c hc
  rcases mem_of_mem_replaceNames hc with hc | ⟨a, ha, hc⟩
  · exact h c hc
  · have hnames : ∀ a ∈ aliases, ∀ c ∈ a.2.toList, IsUnescaped c := by
      simp [aliases, IsUnescaped]
    exact hnames a ha c hc

theorem evaluate_unescaped {s : String} (h : ∀ c ∈ s.toList, IsUnescaped c) (env : Environment) :
    evaluate ("\"" ++ s ++ "\"") env = .ok (.string (withoutAliases s)) := by
  have htext : withoutAliases ("\"" ++ s ++ "\"") =
      String.ofList ('"' :: replaceNames aliases s.toList ++ ['"']) := by
    rw [withoutAliases_eq, String.toList_append, String.toList_append]
    exact congrArg String.ofList (replaceNames_quoted fun _ ha => isAlias_of_mem ha)
  obtain ⟨e, hread, heval⟩ := eval_quoted (isUnescaped_replaceNames h) env
  rw [evaluate, htext]
  simp only [hread, heval]
  rfl

theorem withoutAliases_eq_self_iff (s : String) :
    withoutAliases s = s ↔ ∀ a ∈ aliases, ¬ StandsAtWord a.1.toList false s.toList := by
  rw [← replaceNames_eq_self_iff fun _ ha => isAlias_of_mem ha, withoutAliases_eq]
  constructor
  · intro h
    rw [← String.toList_ofList (l := replaceNames aliases s.toList), h]
  · intro h
    rw [h, String.ofList_toList]

/-- The value of a text between quotes is the text, with second names replaced in it. It is the text
itself just when no second name stands there. -/
theorem evaluate_quoted {s : String} (h : ∀ c ∈ s.toList, IsUnescaped c) (env : Environment) :
    evaluate ("\"" ++ s ++ "\"") env = .ok (.string (withoutAliases s)) ∧
      (evaluate ("\"" ++ s ++ "\"") env = .ok (.string s) ↔
        ∀ a ∈ aliases, ¬ StandsAtWord a.1.toList false s.toList) := by
  have hvalue := evaluate_unescaped h env
  refine ⟨hvalue, ?_⟩
  rw [hvalue, ← withoutAliases_eq_self_iff, Except.ok.injEq, Json.string.injEq]

theorem evaluate_quoted_names :
    (∀ c ∈ "len(x) xlen(y)".toList, IsUnescaped c) ∧
      evaluate ("\"" ++ "len(x) xlen(y)" ++ "\"") Environment.empty =
        .ok (.string "size(x) xlen(y)") := by
  have h : ∀ c ∈ "len(x) xlen(y)".toList, IsUnescaped c := by simp [IsUnescaped]
  have hnames : withoutAliases "len(x) xlen(y)" = "size(x) xlen(y)" := by decide
  exact ⟨h, hnames ▸ (evaluate_quoted h Environment.empty).1⟩

/-- A text between quotes is not always its own value. -/
theorem quoted_text_changed :
    ¬ ∀ (s : String) (env : Environment),
      (∀ c ∈ s.toList, c ≠ '"' ∧ c ≠ '\'' ∧ c ≠ '\\' ∧ 32 ≤ c.toNat ∧
        (c.toNat < 127 ∨ 160 ≤ c.toNat)) →
      evaluate ("\"" ++ s ++ "\"") env = .ok (.string s) := by
  intro h
  have hsame := h "len(x)" Environment.empty (by simp)
  have hvalue : evaluate ("\"" ++ "len(x)" ++ "\"") Environment.empty =
      .ok (.string (withoutAliases "len(x)")) := evaluate_unescaped (by simp [IsUnescaped]) _
  have hchanged : withoutAliases "len(x)" = "size(x)" := by decide
  rw [hvalue, hchanged, Except.ok.injEq, Json.string.injEq] at hsame
  exact absurd hsame (by decide)

end ApiScript.Cel
