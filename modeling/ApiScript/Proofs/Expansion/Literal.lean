import ApiScript.Proofs.Expansion.Basic
import ApiScript.Proofs.Fields
import Mathlib.Data.List.Nodup

/-! # Writing literal text

Any character of a text may be written by its code point, in any of the ways to name it. A text in
which at least the opening braces are written so is expanded to what it stands for; in alternatives
the closing braces must be written so as well, and in values white space.
-/

namespace ApiScript

open Reference

/-- A text is written with some of its characters replaced by references to their code points. Those
that `must` be replaced all are. -/
inductive Spelled (must : Char → Prop) : List Char → List Char → Prop where
  | nil : Spelled must [] []
  | plain {c : Char} {cs written : List Char} : ¬ must c → Spelled must cs written →
      Spelled must (c :: cs) (c :: written)
  | coded {c : Char} {name cs written : List Char} : CodePoint.Names name c →
      Spelled must cs written → Spelled must (c :: cs) (Reference.written ⟨name, none⟩ ++ written)

namespace Spelled

variable {must : Char → Prop} {cs written : List Char} {env : Environment} {name : List Char}

/-- Every text can be written so, whatever must be replaced. -/
theorem exists_written (must : Char → Prop) (cs : List Char) :
    ∃ written, Spelled must cs written := by
  induction cs with
  | nil => exact ⟨_, .nil⟩
  | cons c cs ih =>
    obtain ⟨written, h⟩ := ih
    obtain ⟨name, hn⟩ := CodePoint.exists_names c
    exact ⟨_, .coded hn h⟩

theorem chars_eq (hm : must '{') (h : Spelled must cs written) :
    Expansion.chars env.lookup written = cs := by
  induction h with
  | nil => exact Expansion.chars_nil
  | plain hc _ ih =>
    rw [Expansion.chars_plain (Expansion.not_begins_of_ne (by rintro rfl; exact hc hm)), ih]
  | coded hn _ ih =>
    rw [Expansion.chars_reference hn.wellFormed, Expansion.ofReference,
      Environment.lookup_of_names hn, ih]
    simp [Json.asText]

/-! ## Alternatives -/

theorem balanced (ho : must '{') (hc : must '}') (h : Spelled must cs written) :
    Reference.Balanced written := by
  induction h with
  | nil => exact closes_nil.mpr rfl
  | @plain c cs written hm _ ih =>
    have h₁ : c ≠ '{' := by rintro rfl; exact hm ho
    have h₂ : c ≠ '}' := by rintro rfl; exact hm hc
    rwa [Reference.Balanced, closes_plain h₁ h₂]
  | @coded c name cs written hn _ ih =>
    have hname : ∀ c ∈ name, isNameChar c = true := fun c h => (hn.chars c h).1
    have hw : Reference.written ⟨name, none⟩ ++ written = '{' :: (name ++ '}' :: written) := by
      simp [Reference.written]
    rw [hw, Reference.Balanced, closes_cons, if_pos rfl, closes_name hname, closes_brace]
    exact ⟨by decide, Nat.succ_pos 0, ih⟩

theorem chars_alternative_eq (ho : must '{') (hc : must '}') (h : Spelled must cs written)
    (hne : name ≠ []) (hn : ∀ c ∈ name, isNameChar c = true) (hl : env.lookup name = none) :
    Expansion.chars env.lookup (Reference.written ⟨name, some written⟩) = cs := by
  have hr : WellFormed ⟨name, some written⟩ := by
    refine ⟨hne, hn, ?_⟩
    rintro _ ⟨⟩
    exact h.balanced ho hc
  rw [← List.append_nil (Reference.written _), Expansion.chars_reference hr, Expansion.ofReference,
    hl, Expansion.chars_nil, List.append_nil]
  exact h.chars_eq ho

/-! ## Texts that are values -/

theorem not_isBlank (hb : ∀ c, isBlank c = true → must c) (h : Spelled must cs written) :
    ∀ c ∈ written, isBlank c = false := by
  induction h with
  | nil => simp
  | plain hm _ ih =>
    refine List.forall_mem_cons.mpr ⟨?_, ih⟩
    exact Bool.eq_false_iff.mpr fun h => hm (hb _ h)
  | coded hn _ ih =>
    refine List.forall_mem_append.mpr ⟨?_, ih⟩
    have hname := fun c h => (hn.chars c h).2
    simp only [Reference.written, List.cons_append, List.forall_mem_cons, List.forall_mem_append]
    exact ⟨by decide, hname, by decide, by simp⟩

theorem trimBlanks_eq (h : ∀ c ∈ cs, isBlank c = false) : trimBlanks cs = cs := by
  have hd : ∀ ds : List Char, (∀ c ∈ ds, isBlank c = false) → ds.dropWhile isBlank = ds := by
    intro ds hds
    cases ds with
    | nil => rfl
    | cons d ds => exact List.dropWhile_cons_of_neg (by simp [hds d List.mem_cons_self])
  rw [trimBlanks, hd cs h, hd _ (by simpa using h), List.reverse_reverse]

theorem eq_of_written {r : Reference} (ho : must '{') (hr : r.WellFormed)
    (h : Spelled must cs r.written) :
    ∃ c, cs = [c] ∧ CodePoint.Names r.name c := by
  obtain ⟨inner, hw⟩ := r.written_eq_cons
  generalize hv : r.written = written at h
  cases h with
  | nil => cases hw.symm.trans hv
  | plain hm _ =>
    cases hw.symm.trans hv
    exact (hm ho).elim
  | @coded c name cs written hn h =>
    have hread : read? inner = some (⟨name, none⟩, written) :=
      read?_eq_some_iff.mpr ⟨hw.symm.trans hv, hn.wellFormed⟩
    have hread' : read? inner = some (r, []) :=
      read?_eq_some_iff.mpr ⟨by rw [List.append_nil, hw], hr⟩
    cases hread.symm.trans hread'
    cases h
    exact ⟨c, rfl, hn⟩

theorem text_eq (ho : must '{') (hb : ∀ c, isBlank c = true → must c)
    (h : Spelled must cs written) :
    Expansion.text env.lookup (String.ofList written) = .string (String.ofList cs) := by
  rw [Expansion.text, String.toList_ofList]
  cases hn : ofNode? written with
  | none => rw [Expansion.nodeValue?_of_none hn, h.chars_eq ho]
  | some r =>
    obtain ⟨ht, hr⟩ := ofNode?_eq_some_iff.mp hn
    rw [trimBlanks_eq (h.not_isBlank hb)] at ht
    obtain ⟨c, rfl, hc⟩ := eq_of_written ho hr (ht ▸ h)
    rw [Expansion.nodeValue?_of_some hn, Environment.lookup_of_names hc]

end Spelled

/-! ## Values -/

namespace Json

mutual

/-- A value is written with some of the characters of its texts replaced by references to their code
points. The fields of an object stand in the order of the names as they are written. -/
inductive Spelled (must : Char → Prop) : Json → Json → Prop where
  | null : Spelled must .null .null
  | bool {b : Bool} : Spelled must (.bool b) (.bool b)
  | number {n : JsonNumber} : Spelled must (.number n) (.number n)
  | string {s q : String} : ApiScript.Spelled must s.toList q.toList →
      Spelled must (.string s) (.string q)
  | array {xs ys : List Json} : SpelledItems must xs ys → Spelled must (.array xs) (.array ys)
  | object {xs ys : List (String × Json)} : SpelledFields must xs ys →
      Spelled must (.object xs) (.object (Fields.ofList ys))

inductive SpelledItems (must : Char → Prop) : List Json → List Json → Prop where
  | nil : SpelledItems must [] []
  | cons {x y : Json} {xs ys : List Json} : Spelled must x y → SpelledItems must xs ys →
      SpelledItems must (x :: xs) (y :: ys)

inductive SpelledFields (must : Char → Prop) :
    List (String × Json) → List (String × Json) → Prop where
  | nil : SpelledFields must [] []
  | cons {n m : String} {x y : Json} {xs ys : List (String × Json)} :
      ApiScript.Spelled must n.toList m.toList → Spelled must x y → SpelledFields must xs ys →
      SpelledFields must ((n, x) :: xs) ((m, y) :: ys)

end

variable {must : Char → Prop}

mutual

theorem exists_spelled (must : Char → Prop) : ∀ v : Json, ∃ v', Spelled must v v'
  | .null => ⟨_, .null⟩
  | .bool _ => ⟨_, .bool⟩
  | .number _ => ⟨_, .number⟩
  | .string s => by
    obtain ⟨written, h⟩ := ApiScript.Spelled.exists_written must s.toList
    exact ⟨.string (String.ofList written), .string (by rwa [String.toList_ofList])⟩
  | .array xs => by
    obtain ⟨ys, h⟩ := exists_spelledItems must xs
    exact ⟨_, .array h⟩
  | .object xs => by
    obtain ⟨ys, h⟩ := exists_spelledFields must xs
    exact ⟨_, .object h⟩

theorem exists_spelledItems (must : Char → Prop) :
    ∀ xs : List Json, ∃ ys, SpelledItems must xs ys
  | [] => ⟨_, .nil⟩
  | x :: xs => by
    obtain ⟨y, h⟩ := exists_spelled must x
    obtain ⟨ys, hs⟩ := exists_spelledItems must xs
    exact ⟨_, .cons h hs⟩

theorem exists_spelledFields (must : Char → Prop) :
    ∀ xs : List (String × Json), ∃ ys, SpelledFields must xs ys
  | [] => ⟨_, .nil⟩
  | (n, x) :: xs => by
    obtain ⟨written, hn⟩ := ApiScript.Spelled.exists_written must n.toList
    obtain ⟨y, h⟩ := exists_spelled must x
    obtain ⟨ys, hs⟩ := exists_spelledFields must xs
    exact ⟨_, .cons (m := String.ofList written) (by rwa [String.toList_ofList]) h hs⟩

end

/-! ### Values whose objects are in order -/

theorem names_normaliseFields (fields : Fields Json) :
    Fields.names (normaliseFields fields) = Fields.names fields := by
  induction fields with
  | nil => rw [normaliseFields]
  | cons field rest ih => exact congrArg (field.1 :: ·) ih

theorem normalise_array {items : List Json} (h : (Json.array items).normalise = .array items) :
    normaliseItems items = items := by
  rw [normalise] at h
  exact Json.array.inj h

theorem normalise_object {fields : Fields Json}
    (h : (Json.object fields).normalise = .object fields) :
    Fields.Ordered fields ∧ normaliseFields fields = fields := by
  rw [normalise] at h
  have he := Json.object.inj h
  have ho : Fields.Ordered fields := he ▸ Fields.ordered_ofList _
  have ho' : Fields.Ordered (normaliseFields fields) := by
    rwa [Fields.Ordered, names_normaliseFields]
  exact ⟨ho, (ho'.ofList_eq (.refl _)).symm.trans he⟩

end Json

namespace Expansion

variable {lookup : List Char → Option Json}

theorem fieldValues_eq_map (fields : Fields Json) : fieldValues lookup fields =
    fields.map fun f => (String.ofList (chars lookup f.1.toList), value lookup f.2) := by
  induction fields with
  | nil => rw [fieldValues, List.map_nil]
  | cons field rest ih => rw [fieldValues, ih, List.map_cons]

/-- Fields whose names stay apart when they are expanded can be put together before or after. -/
theorem ofList_fieldValues {fields pairs : Fields Json} (h : fieldValues lookup pairs = fields)
    (ho : Fields.Ordered fields) :
    Fields.ofList (fieldValues lookup (Fields.ofList pairs)) = fields := by
  have hn : (Fields.names pairs).Nodup := by
    have : Fields.names fields =
        (Fields.names pairs).map fun n => String.ofList (chars lookup n.toList) := by
      rw [← h, fieldValues_eq_map, Fields.names, Fields.names, List.map_map, List.map_map]
      rfl
    exact List.Nodup.of_map _ (this ▸ ho.nodup)
  refine ho.ofList_eq ?_
  rw [← h, fieldValues_eq_map, fieldValues_eq_map]
  exact (Fields.ofList_perm hn).map _

variable {must : Char → Prop} {env : Environment}

mutual

theorem value_spelled (ho : must '{') (hb : ∀ c, isBlank c = true → must c) :
    ∀ {v v' : Json}, v.normalise = v → Json.Spelled must v v' → value env.lookup v' = v
  | .null, _, _, h => by
    cases h
    rw [value] <;> nofun
  | .bool _, _, _, h => by
    cases h
    rw [value] <;> nofun
  | .number _, _, _, h => by
    cases h
    rw [value] <;> nofun
  | .string s, _, _, h => by
    cases h with
    | @string _ q h =>
      have ht : text env.lookup (String.ofList q.toList) = .string (String.ofList s.toList) :=
        h.text_eq ho hb
      rwa [String.ofList_toList, String.ofList_toList, ← value] at ht
  | .array xs, _, hv, h => by
    cases h with
    | array h => rw [value, values_spelled ho hb (Json.normalise_array hv) h]
  | .object xs, _, hv, h => by
    obtain ⟨hord, hv⟩ := Json.normalise_object hv
    cases h with
    | object h => rw [value, ofList_fieldValues (fieldValues_spelled ho hb hv h) hord]

theorem values_spelled (ho : must '{') (hb : ∀ c, isBlank c = true → must c) :
    ∀ {xs ys : List Json}, Json.normaliseItems xs = xs → Json.SpelledItems must xs ys →
      values env.lookup ys = xs
  | [], _, _, h => by
    cases h
    rw [values]
  | x :: xs, _, hv, h => by
    rw [Json.normaliseItems] at hv
    obtain ⟨hx, hxs⟩ := List.cons.inj hv
    cases h with
    | cons h hs => rw [values, value_spelled ho hb hx h, values_spelled ho hb hxs hs]

theorem fieldValues_spelled (ho : must '{') (hb : ∀ c, isBlank c = true → must c) :
    ∀ {xs ys : List (String × Json)}, Json.normaliseFields xs = xs →
      Json.SpelledFields must xs ys → fieldValues env.lookup ys = xs
  | [], _, _, h => by
    cases h
    rw [fieldValues]
  | (n, x) :: xs, _, hv, h => by
    rw [Json.normaliseFields] at hv
    obtain ⟨hx, hxs⟩ := List.cons.inj hv
    cases h with
    | cons hn h hs =>
      rw [fieldValues, hn.chars_eq ho, String.ofList_toList,
        value_spelled ho hb (Prod.mk.inj hx).2 h, fieldValues_spelled ho hb hxs hs]

end

end Expansion

namespace Environment

/-- Whatever the variables are, a text in which at least the opening braces are written by their
code points is expanded to what it stands for, and so is one in which the closing braces are as well
and which is the alternative of a name that stands for nothing. A value whose objects are in order,
and in which white space is written so too, in the names of fields as elsewhere, is expanded to what
it stands for. Every text and every value can be written so. -/
theorem expand_spelled (env : Environment) :
    (∀ s q : String, Spelled (· = '{') s.toList q.toList → env.expand q = s) ∧
    (∀ s q name : String, Spelled (fun c => c = '{' ∨ c = '}') s.toList q.toList → name ≠ "" →
      (∀ c ∈ name.toList, isNameChar c = true) → env.lookup name.toList = none →
      env.expand ("\x7b" ++ name ++ "|" ++ q ++ "\x7d") = s) ∧
    (∀ v v' : Json, v.normalise = v →
      Json.Spelled (fun c => c = '{' ∨ isBlank c = true) v v' → env.expandValue v' = v) ∧
    ∀ must : Char → Prop, (∀ s : String, ∃ q : String, Spelled must s.toList q.toList) ∧
      ∀ v : Json, ∃ v', Json.Spelled must v v' := by
  refine ⟨fun s q h => ?_, fun s q name h hne hn hl => ?_, fun v v' hv h => ?_,
    fun must => ⟨fun s => ?_, Json.exists_spelled must⟩⟩
  · rw [expand, h.chars_eq (by rfl), String.ofList_toList]
  · have hw : ("\x7b" ++ name ++ "|" ++ q ++ "\x7d").toList =
        Reference.written ⟨name.toList, some q.toList⟩ := by
      simp [Reference.written]
    have hne' : name.toList ≠ [] := by simpa using hne
    rw [expand, hw, h.chars_alternative_eq (.inl rfl) (.inr rfl) hne' hn hl, String.ofList_toList]
  · exact Expansion.value_spelled (.inl rfl) (fun _ => .inr) hv h
  · obtain ⟨written, h⟩ := Spelled.exists_written must s.toList
    exact ⟨String.ofList written, by rwa [String.toList_ofList]⟩

theorem expand_spelled_brace :
    let v : Json := .object [("a", .string "\x7b"), ("b", .string "x y")]
    let v' : Json := .object
      [("b", .string "x\x7bU+000020\x7dy"), ("\x7bU+0061\x7d", .string "\x7bu+007b\x7d")]
    Environment.empty.lookup "n".toList = none ∧
      Environment.empty.expand "\x7bu+007b\x7d" = "\x7b" ∧
      Environment.empty.expand ("\x7b" ++ "n" ++ "|" ++ "\x7bu+007b\x7d" ++ "\x7d") = "\x7b" ∧
      Environment.empty.expandValue v' = v := by
  have hb : ∀ must, Spelled must "\x7b".toList "\x7bu+007b\x7d".toList := fun must =>
    .coded (CodePoint.char?_eq_some_iff.mp (by decide : CodePoint.char? "u+007b".toList = some '{'))
      .nil
  have ha : ∀ must, Spelled must "a".toList "\x7bU+0061\x7d".toList := fun must =>
    .coded (CodePoint.char?_eq_some_iff.mp (by decide : CodePoint.char? "U+0061".toList = some 'a'))
      .nil
  have hs : Spelled (fun c => c = '{' ∨ isBlank c = true) "x y".toList
      "x\x7bU+000020\x7dy".toList :=
    .plain (by decide) (.coded (CodePoint.char?_eq_some_iff.mp
      (by decide : CodePoint.char? "U+000020".toList = some ' ')) (.plain (by decide) .nil))
  obtain ⟨htext, halt, hvalue, -⟩ := expand_spelled Environment.empty
  have hname : ∀ c ∈ "n".toList, isNameChar c = true := List.forall_mem_singleton.mpr (by decide)
  refine ⟨by decide, htext _ _ (hb _), halt _ _ "n" (hb _) (by decide) hname (by decide), ?_⟩
  have hn : Spelled (fun c => c = '{' ∨ isBlank c = true) "b".toList "b".toList :=
    .plain (by decide) .nil
  have hv := Json.Spelled.object (.cons (ha _) (.string (hb _)) (.cons hn (.string hs) .nil))
  exact hvalue _ _ rfl hv

end Environment

end ApiScript
