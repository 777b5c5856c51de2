import ApiScript.Proofs.Cel.Quoted
import ApiScript.Proofs.Json.Ordered
import ApiScript.Proofs.Session.Extracting

/-! # Variables in expressions

A value of JSON becomes a value of expressions and comes back unchanged. So an expression that is
the name of a variable has the value of the variable. Variables whose names cannot be written in an
expression do not matter to it, and neither does the order of the others.
-/

namespace ApiScript

namespace Cel

/-! ## Values of JSON -/

namespace Value

theorem itemsToJson?_ofItems {items : List Json}
    (h : ∀ x ∈ items, (ofJson x).toJson? = some x) :
    itemsToJson? (ofItems items) = some items := by
  induction items with
  | nil => rfl
  | cons x xs ih =>
    obtain ⟨hx, hxs⟩ := List.forall_mem_cons.mp h
    rw [ofItems, itemsToJson?, hx, ih hxs]

theorem entriesToJson?_ofFields {fields : Fields Json}
    (h : ∀ field ∈ fields, (ofJson field.2).toJson? = some field.2) :
    entriesToJson? (ofFields fields) = some fields := by
  induction fields with
  | nil => rfl
  | cons field rest ih =>
    obtain ⟨hx, hxs⟩ := List.forall_mem_cons.mp h
    rw [ofFields, entriesToJson?, hx, ih hxs]
    rfl

theorem toJson?_ofJson_number (n : JsonNumber) :
    (ofJson (.number n)).toJson? = some (.number n) := by
  cases n with
  | int n =>
    rw [ofJson]
    split
    · rename_i hn
      rw [toJson?, Int.toNat_of_nonneg hn]
    · rw [toJson?]
  | float x =>
    rw [ofJson, toJson?]
    exact congrArg some (dif_pos x.2)

/-- A value comes back unchanged, with the fields of its objects in order. -/
theorem toJson?_ofJson {v : Json} (h : v.Ordered) : (ofJson v).toJson? = some v := by
  induction h with
  | null => rfl
  | bool b => rfl
  | number n => exact toJson?_ofJson_number n
  | string s => rfl
  | array _ ih =>
    rw [ofJson, toJson?, itemsToJson?_ofItems ih]
    rfl
  | object hfields _ ih =>
    rw [ofJson, toJson?, entriesToJson?_ofFields ih, Option.map_some, hfields.ofList_eq (.refl _)]

end Value

/-! ## Names as expressions -/

variable {name : String} {v : Json} {c : Char} {cs : List Char}

/-- The words that are no names in an expression. -/
def reservedWords : List String :=
  ["true", "false", "null", "in", "as", "break", "const", "continue", "else", "for", "function",
    "if", "import", "let", "loop", "package", "namespace", "return", "var", "void", "while"]

namespace Lexer

theorem isNameChar_of_isNameStart (h : isNameStart c = true) : isNameChar c = true := by
  rw [isNameStart, Bool.or_eq_true] at h
  rw [isNameChar, Char.isAlphanum, Bool.or_eq_true, Bool.or_eq_true]
  exact h.imp_left .inl

theorem quoted?_of_isNameChar (h : isNameChar c = true) (isRaw : Bool) (cs : List Char) :
    quoted? isRaw (c :: cs) = none := by
  have hd : c ≠ '"' := by rintro rfl; exact absurd h (by decide)
  have hs : c ≠ '\'' := by rintro rfl; exact absurd h (by decide)
  simp [quoted?, hd, hs]

theorem text?_of_name (h : ∀ d ∈ c :: cs, isNameChar d = true) : text? (c :: cs) = none := by
  obtain ⟨hc, hcs⟩ := List.forall_mem_cons.mp h
  cases cs with
  | nil => rfl
  | cons d cs =>
    obtain ⟨hd, hcs⟩ := List.forall_mem_cons.mp hcs
    have hrest : quoted? true cs = none := by
      cases cs with
      | nil => rfl
      | cons e cs => exact quoted?_of_isNameChar (List.forall_mem_cons.mp hcs).1 true cs
    simp only [text?, quoted?_of_isNameChar hc, quoted?_of_isNameChar hd, hrest, Option.map_none,
      ite_self]

theorem token?_name (hc : isNameStart c = true) (hcs : ∀ d ∈ cs, isNameChar d = true) :
    token? (c :: cs) = some (ofName (String.ofList (c :: cs)), []) := by
  have h : ∀ d ∈ c :: cs, isNameChar d = true :=
    List.forall_mem_cons.mpr ⟨isNameChar_of_isNameStart hc, hcs⟩
  rw [token?, text?_of_name h]
  dsimp only
  rw [if_pos hc, List.takeWhile_eq_self_iff.mpr h, List.dropWhile_eq_nil_iff.mpr h]

theorem tokens?_nil (limit : Nat) : tokens? limit [] = some [] := by cases limit <;> rfl

theorem ofName_of_notMem (h : name ∉ reservedWords) : ofName name = .name name := by
  simp only [reservedWords, List.mem_cons, not_or] at h
  obtain ⟨htrue, hfalse, hnull, hin, -⟩ := h
  rw [ofName, if_neg htrue, if_neg hfalse, if_neg hnull, if_neg hin]

end Lexer

theorem isIdentifier_iff : isIdentifier name = true ↔ ∃ c cs, name.toList = c :: cs ∧
    Lexer.isNameStart c = true ∧ ∀ d ∈ cs, Lexer.isNameChar d = true := by
  unfold isIdentifier
  split
  · rename_i h
    simp [h]
  · rename_i c cs h
    simp [h]

theorem isNameChar_of_isIdentifier (h : isIdentifier name = true) :
    ∀ c ∈ name.toList, Lexer.isNameChar c = true := by
  obtain ⟨c, cs, he, hc, hcs⟩ := isIdentifier_iff.mp h
  rw [he]
  exact List.forall_mem_cons.mpr ⟨Lexer.isNameChar_of_isNameStart hc, hcs⟩

theorem tokens_name (h : isIdentifier name = true) (hr : name ∉ reservedWords) :
    Token.all? name = some [.name name] := by
  obtain ⟨c, cs, he, hc, hcs⟩ := isIdentifier_iff.mp h
  have hl : name.length = cs.length + 1 := by
    rw [← String.length_toList, he, List.length_cons]
  have hspace : Lexer.isSpace c = false := by
    rw [Bool.eq_false_iff]
    intro hs
    simp only [Lexer.isSpace, Bool.or_eq_true, beq_iff_eq] at hs
    rcases hs with (((rfl | rfl) | rfl) | rfl) | rfl <;> exact absurd hc (by decide)
  have hslash : (c == '/') = false := by
    rw [beq_eq_false_iff_ne]
    rintro rfl
    exact absurd hc (by decide)
  have hname : String.ofList (c :: cs) = name := by rw [← he, String.ofList_toList]
  rw [Token.all?, hl, he, Lexer.tokens?, Lexer.token?_name hc hcs, hname,
    Lexer.ofName_of_notMem hr, hspace, hslash]
  simp only [Bool.false_and, Bool.false_eq_true, if_false, Lexer.tokens?_nil, Option.map_some]

theorem ofText?_of_name (h : Token.all? name = some [.name name]) :
    Expr.ofText? name = some (.variable name) := by
  rw [Expr.ofText?, h]
  rfl

theorem withoutAliases_name (h : isIdentifier name = true) : withoutAliases name = name := by
  rw [withoutAliases_eq_self_iff]
  rintro a ha ⟨before, after, he, -⟩
  have hparenthesis : ∀ a ∈ aliases, '(' ∈ a.1.toList := by decide
  have hm : '(' ∈ name.toList := by
    rw [he]
    exact List.mem_append_left _ (List.mem_append_right _ (hparenthesis a ha))
  exact absurd (isNameChar_of_isIdentifier h _ hm) (by decide)

theorem evaluate_name {env : Environment} (h : isIdentifier name = true)
    (hr : name ∉ reservedWords) (hv : env.get? name = some v) (ho : v.Ordered) :
    evaluate name env = .ok v := by
  have heval : eval? (scopeOf env) (.variable name) = some (Value.ofJson v) := by
    rw [eval?, scopeOf, if_pos h, hv, Option.map_some]
  rw [evaluate, withoutAliases_name h]
  simp only [ofText?_of_name (tokens_name h hr), heval, Value.toJson?_ofJson ho]

/-! ## Other variables -/

variable {a b : Environment}

/-- The variables whose names can be written in an expression. -/
def visible (env : Environment) : List (String × Json) :=
  env.entries.filter fun e => isIdentifier e.1

theorem mem_visible_iff {env : Environment} (hn : env.bindings.names.Nodup)
    (h : isIdentifier name = true) : (name, v) ∈ visible env ↔ env.get? name = some v := by
  rw [visible, List.mem_filter]
  constructor
  · rintro ⟨hm, -⟩
    exact Table.find?_of_mem hn hm
  · intro hv
    exact ⟨Table.mem_of_get? hv, h⟩

theorem scopeOf_congr (h : ∀ name, isIdentifier name = true → a.get? name = b.get? name) :
    scopeOf a = scopeOf b := by
  funext name
  rw [scopeOf, scopeOf]
  split
  · rw [h name ‹_›]
  · rfl

/-- Of the variables an expression sees no more than those that can be written in it, in whatever
order they stand. -/
theorem evaluate_congr (ha : a.bindings.names.Nodup) (hb : b.bindings.names.Nodup)
    (h : (visible a).Perm (visible b)) (text : String) : evaluate text a = evaluate text b := by
  have hget : ∀ name, isIdentifier name = true → a.get? name = b.get? name := by
    intro name hn
    refine Option.ext fun v => ?_
    rw [← mem_visible_iff ha hn, ← mem_visible_iff hb hn, h.mem_iff]
  rw [evaluate, evaluate, scopeOf_congr hget]

/-! ## Taking the value of a variable -/

theorem notMem_brace_of_isIdentifier (h : isIdentifier name = true) : '{' ∉ name.toList :=
  fun hm => absurd (isNameChar_of_isIdentifier h _ hm) (by decide)

open Extractor in
theorem run_extractor_name {s : Session} {language : Option String} (call : CallContext)
    (target : String) (hlang : s.plugins.engines.get? (language.getD s.language) = some evaluate)
    (h : isIdentifier name = true) (hr : name ∉ reservedWords) (hv : s.env.get? name = some v)
    (ho : v.Ordered) :
    ((ByEntry.expressions language).extractor s (.object [(target, .string name)]) call).run.run
      s.vars = match s.vars.bind target v with
        | .error f => (.error (Trouble.ofFault f), s.vars)
        | .ok w => (.ok (), w) := by
  have hdraws : (ByEntry.expressions language).Draws s call (.expressions evaluate) :=
    .expressions hlang
  have hgives : (Origin.expressions evaluate).Gives s.vars.env target (.string name) v := by
    refine .expression ?_
    rw [Environment.expand_of_notMem _ (notMem_brace_of_isIdentifier h)]
    exact evaluate_name h hr hv ho
  rw [hdraws.extractor_eq, Binding.run_bindEach_cons, hgives.find_eq]
  rfl

open Extractor in
/-- An expression that is the name of a variable has the value of the variable. No expression sees
more of the variables than those whose names can be written in it, and none sees their order. So
where expressions are in this language, to take the value of such an expression binds the value of
the variable, and changes no other variable; a reserved name is refused. -/
theorem evaluate_variable (hn : isIdentifier name = true) (hr : name ∉ reservedWords)
    (ho : v.Ordered) :
    (∀ env : Environment, env.get? name = some v → evaluate name env = .ok v) ∧
    (∀ a b : Environment, a.bindings.names.Nodup → b.bindings.names.Nodup →
      (visible a).Perm (visible b) → ∀ text, evaluate text a = evaluate text b) ∧
    ∀ (s : Session) (language : Option String) (call : CallContext) (target : String),
      s.plugins.engines.get? (language.getD s.language) = some evaluate →
      s.env.get? name = some v →
      let take := (ByEntry.expressions language).extractor s (.object [(target, .string name)]) call
      (Environment.isReserved target = true →
        (Run.ofBinding take).Ends s (.error (.reservedName target)) s) ∧
      (Environment.isReserved target = false → ∃ w,
        (Run.ofBinding take).Ends s (.ok ()) { s with vars := w } ∧
        w.env.get? target = some v ∧ ∀ other, other ≠ target →
          w.env.get? other = s.env.get? other) := by
  refine ⟨fun env hv => evaluate_name hn hr hv ho, fun a b ha hb => evaluate_congr ha hb, ?_⟩
  intro s language call target hlang hv take
  have hrun := run_extractor_name call target hlang hn hr hv ho
  constructor
  · intro ht
    rw [Binding.bind_of_reserved ht] at hrun
    exact Run.ends_ofBinding.mpr (by rw [hrun]; exact ⟨rfl, rfl⟩)
  · intro ht
    obtain ⟨w, hw, henv⟩ : ∃ w, s.vars.bind target v = .ok w ∧ s.env.bind target v = .ok w.env := by
      rcases Binding.bind_cases s.vars target v with ⟨ht', -⟩ | h
      · cases ht.symm.trans ht'
      · exact h
    rw [hw] at hrun
    refine ⟨w, Run.ends_ofBinding.mpr (by rw [hrun]; exact ⟨rfl, rfl⟩), ?_, fun other hne => ?_⟩
    · exact Environment.get?_bind_self henv
    · exact Environment.get?_of_bind henv hne.symm

open Extractor in
theorem evaluate_variable_nested :
    let v : Json := .object [("a", .array [.number (.int (-1)), .number (.int 1),
      .number (.float ⟨⟨0x3ff0000000000000⟩, by decide⟩)]), ("b", .object [("c", .null)])]
    let a : Environment := ⟨⟨[("x", v), (".x", .bool true), ("y", .null)]⟩⟩
    let b : Environment := ⟨⟨[("y", .null), ("x.a", .bool false), ("x", v)]⟩⟩
    let call : CallContext := ⟨⟨none, [], []⟩, none, none⟩
    evaluate "x" a = .ok v ∧ evaluate "x == y" a = evaluate "x == y" b ∧
      ∃ s w, Session.start a Settings.standard Plugins.standard = .ok s ∧
        (Run.ofBinding ((ByEntry.expressions none).extractor s
          (.object [("z", .string "x")]) call)).Ends s (.ok ()) { s with vars := w } ∧
        w.env.get? "z" = some v ∧ w.env.get? ".x" = some (.bool true) := by
  intro v a b call
  have ho : v.Ordered := by
    refine .object (by decide) (List.forall_mem_cons.mpr ⟨?_, List.forall_mem_singleton.mpr ?_⟩)
    · exact .array (by simp [Json.Ordered.number])
    · exact .object (by decide) (List.forall_mem_singleton.mpr .null)
  have hn : isIdentifier "x" = true := by decide
  obtain ⟨hvalue, hcongr, hbinds⟩ := evaluate_variable hn (by decide) ho
  have hy : isIdentifier "y" = true := by decide
  have ha : visible a = [("x", v), ("y", .null)] := by
    have hdot : isIdentifier ".x" = false := by decide
    simp [visible, Environment.entries, a, hn, hy, hdot]
  have hb : visible b = [("y", .null), ("x", v)] := by
    have hdot : isIdentifier "x.a" = false := by decide
    simp [visible, Environment.entries, b, hn, hy, hdot]
  obtain ⟨s, hs, hlang, hx⟩ : ∃ s, Session.start a Settings.standard Plugins.standard = .ok s ∧
      s.plugins.engines.get? ((none : Option String).getD s.language) = some evaluate ∧
      s.env.get? "x" = some v := ⟨_, rfl, rfl, rfl⟩
  obtain ⟨w, hends, hz, hothers⟩ := (hbinds s none call "z" hlang hx).2 (by decide)
  have hperm : (visible a).Perm (visible b) := by
    rw [ha, hb]
    exact .swap _ _ _
  refine ⟨hvalue a rfl, ?_, s, w, hs, hends, hz, ?_⟩
  · exact hcongr a b (by decide) (by decide) hperm "x == y"
  · rw [hothers ".x" (by decide)]
    cases hs
    rfl

end Cel

end ApiScript
