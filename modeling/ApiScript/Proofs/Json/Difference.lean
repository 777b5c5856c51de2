import ApiScript.Plugin.Standard
import ApiScript.Proofs.Json.FirstDifference
import ApiScript.Proofs.Json.Ordered

/-! # The first difference is found

What `difference` reports is the first difference of two values, and it reports nothing just if they
are equal.
-/

namespace ApiScript

namespace Json

variable {path : String} {m : String}

/-! ## What is reported about parts -/

section Parts

variable {want got : Fields Json} {wants gots : List Json}

theorem text_key (path name : String) : s!"{path}.{name}" = path ++ (Step.key name).text := by
  rw [Step.text, ← String.append_assoc]
  rfl

theorem text_index (path : String) (i : Nat) :
    s!"{path}[{i}]" = path ++ (Step.index i).text := by
  rw [Step.text, ← String.append_assoc, ← String.append_assoc]
  rfl

/-- A field of which nothing is reported. -/
def FieldUnreported (path : String) (got : Fields Json) (field : String × Json) : Prop :=
  ∃ g, Fields.get? field.1 got = some g ∧
    differenceAt (path ++ (Step.key field.1).text) field.2 g = none

theorem differenceInFields_eq_none_iff : differenceInFields path want got = none ↔
    ∀ field ∈ want, FieldUnreported path got field := by
  induction want with
  | nil => simp [differenceInFields]
  | cons field rest ih =>
    obtain ⟨n, w⟩ := field
    rw [List.forall_mem_cons, ← ih, differenceInFields, text_key, FieldUnreported]
    cases hg : Fields.get? n got with
    | none => simp
    | some g => cases hd : differenceAt (path ++ (Step.key n).text) w g <;> simp [hd]

theorem exists_of_differenceInFields (h : differenceInFields path want got = some m) :
    ∃ before n w after, want = before ++ (n, w) :: after ∧
      (∀ field ∈ before, FieldUnreported path got field) ∧
      ((Fields.get? n got = none ∧ m = path ++ (Step.key n).text ++ " is missing") ∨
        ∃ g, Fields.get? n got = some g ∧
          differenceAt (path ++ (Step.key n).text) w g = some m) := by
  induction want with
  | nil => cases h
  | cons field rest ih =>
    obtain ⟨n, w⟩ := field
    rw [differenceInFields, text_key] at h
    cases hg : Fields.get? n got with
    | none =>
      refine ⟨[], n, w, rest, rfl, List.forall_mem_nil _, .inl ⟨hg, ?_⟩⟩
      rw [hg] at h
      cases h
      simp [Step.text, toString, String.append_assoc]
    | some g =>
      simp only [hg] at h
      cases hd : differenceAt (path ++ (Step.key n).text) w g with
      | some m' =>
        simp only [hd] at h
        cases h
        exact ⟨[], n, w, rest, rfl, List.forall_mem_nil _, .inr ⟨g, hg, hd⟩⟩
      | none =>
        simp only [hd] at h
        obtain ⟨before, n', w', after, rfl, hb, h'⟩ := ih h
        exact ⟨(n, w) :: before, n', w', after, rfl, List.forall_mem_cons.mpr ⟨⟨g, hg, hd⟩, hb⟩, h'⟩

theorem unexpected?_eq_none_iff : unexpected? want got = none ↔
    ∀ field ∈ got, Fields.contains field.1 want = true := by
  induction got with
  | nil => simp [unexpected?]
  | cons field rest ih =>
    rw [List.forall_mem_cons, ← ih, unexpected?]
    split <;> simp_all

theorem exists_of_unexpected? {n : String} (h : unexpected? want got = some n) :
    ∃ before y after, got = before ++ (n, y) :: after ∧ Fields.contains n want = false ∧
      ∀ field ∈ before, Fields.contains field.1 want = true := by
  induction got with
  | nil => cases h
  | cons field rest ih =>
    obtain ⟨k, v⟩ := field
    rw [unexpected?] at h
    split at h
    · rename_i hk
      obtain ⟨before, y, after, rfl, hn, hb⟩ := ih h
      exact ⟨(k, v) :: before, y, after, rfl, hn, List.forall_mem_cons.mpr ⟨hk, hb⟩⟩
    · rename_i hk
      cases h
      exact ⟨[], v, rest, rfl, eq_false_of_ne_true hk, List.forall_mem_nil _⟩

def ItemUnreported (path : String) (position : Nat) (wants gots : List Json) (i : Nat) : Prop :=
  ∀ x y, wants[i]? = some x → gots[i]? = some y →
    differenceAt (path ++ (Step.index (position + i)).text) x y = none

theorem itemUnreported_succ_iff {position i : Nat} {want got : Json} :
    ItemUnreported path position (want :: wants) (got :: gots) (i + 1) ↔
      ItemUnreported path (position + 1) wants gots i := by
  rw [ItemUnreported, ItemUnreported, Nat.add_right_comm position 1 i]
  rfl

theorem differenceInItems_eq_none_iff {position : Nat} :
    differenceInItems path position wants gots = none ↔
      ∀ i, ItemUnreported path position wants gots i := by
  induction wants generalizing gots position with
  | nil => simp [differenceInItems, ItemUnreported]
  | cons want wants ih =>
    cases gots with
    | nil => simp [differenceInItems, ItemUnreported]
    | cons got gots =>
      rw [differenceInItems, text_index]
      constructor
      · intro h i
        split at h
        · cases h
        · rename_i hd
          cases i with
          | zero =>
            rintro x y ⟨⟩ ⟨⟩
            exact hd
          | succ i => exact itemUnreported_succ_iff.mpr (ih.mp h i)
      · intro h
        have hd : differenceAt (path ++ (Step.index position).text) want got = none :=
          h 0 want got rfl rfl
        rw [hd]
        exact ih.mpr fun i => itemUnreported_succ_iff.mp (h (i + 1))

theorem exists_of_differenceInItems {position : Nat}
    (h : differenceInItems path position wants gots = some m) : ∃ i x y,
      wants[i]? = some x ∧ gots[i]? = some y ∧
      differenceAt (path ++ (Step.index (position + i)).text) x y = some m ∧
      ∀ j < i, ItemUnreported path position wants gots j := by
  induction wants generalizing gots position with
  | nil => cases h
  | cons want wants ih =>
    cases gots with
    | nil => cases h
    | cons got gots =>
      rw [differenceInItems, text_index] at h
      split at h
      · rename_i hd
        cases h
        exact ⟨0, want, got, rfl, rfl, hd, fun j hj => absurd hj j.not_lt_zero⟩
      · rename_i hd
        obtain ⟨i, x, y, hx, hy, hi, hb⟩ := ih h
        refine ⟨i + 1, x, y, hx, hy, by rwa [Nat.add_right_comm] at hi, fun j hj => ?_⟩
        cases j with
        | zero =>
          rintro x y ⟨⟩ ⟨⟩
          exact hd
        | succ j => exact itemUnreported_succ_iff.mpr (hb j (Nat.lt_of_succ_lt_succ hj))

end Parts

/-! ## What is visited before -/

section Earlier

variable {want got : Fields Json} {s : Step} {n : String} {w : Json}

def Agrees (got : Fields Json) (field : String × Json) : Prop :=
  ∃ g, Fields.get? field.1 got = some g ∧ field.2.Equals g

theorem Agrees.rel {name : String} {x : Json} (hx : Fields.get? name want = some x)
    (h : Agrees got (name, x)) :
    Option.Rel Equals (part? (.key name) (.object want)) (part? (.key name) (.object got)) := by
  obtain ⟨g, hg, he⟩ := h
  change Option.Rel Equals (Fields.get? name want) (Fields.get? name got)
  rw [hx, hg]
  exact .some he

/-- Before an expected field stand the expected fields with smaller names. -/
theorem rel_before_expected {before after : Fields Json}
    (hw : Fields.Ordered (before ++ (n, w) :: after)) (hb : ∀ field ∈ before, Agrees got field)
    (hs : Step.Before (.object (before ++ (n, w) :: after)) s (.key n)) :
    Option.Rel Equals (part? s (.object (before ++ (n, w) :: after))) (part? s (.object got)) := by
  have hn : Fields.contains n (before ++ (n, w) :: after) = true := by
    rw [Fields.contains, hw.get?_append_cons, Option.isSome_some]
  cases hs with
  | expected hm _ hlt =>
    obtain ⟨x, hx⟩ := Option.isSome_iff_exists.mp hm
    exact (hb _ (hw.mem_of_lt (Fields.mem_of_get? hx) hlt)).rel hx
  | unexpectedLast _ hn' => cases hn.symm.trans hn'
  | unexpected _ hn' => cases hn.symm.trans hn'

/-- Before an unexpected field stand all expected ones and the unexpected ones with smaller
names. -/
theorem rel_before_unexpected {before after : Fields Json} (hn : Fields.contains n want = false)
    (hw : ∀ field ∈ want, Agrees (before ++ (n, w) :: after) field)
    (hg : Fields.Ordered (before ++ (n, w) :: after))
    (hb : ∀ field ∈ before, Fields.contains field.1 want = true)
    (hs : Step.Before (.object want) s (.key n)) :
    Option.Rel Equals (part? s (.object want)) (part? s (.object (before ++ (n, w) :: after))) := by
  cases hs with
  | expected _ hn' => cases hn.symm.trans hn'
  | unexpectedLast hm =>
    obtain ⟨x, hx⟩ := Option.isSome_iff_exists.mp hm
    exact (hw _ (Fields.mem_of_get? hx)).rel hx
  | @unexpected _ k _ hm _ hlt =>
    change Option.Rel Equals (Fields.get? k want) (Fields.get? k (before ++ (n, w) :: after))
    have hk : Fields.get? k (before ++ (n, w) :: after) = none := by
      by_contra hk
      obtain ⟨y, hy⟩ := Option.ne_none_iff_exists'.mp hk
      cases hm.symm.trans (hb _ (hg.mem_of_lt (Fields.mem_of_get? hy) hlt))
    rw [hk, Option.isNone_iff_eq_none.mp (Option.isSome_eq_false_iff.mp hm)]
    exact .none

end Earlier

/-! ## The whole report -/

/-- A report is right: nothing is reported of equal values, and otherwise their first difference,
at a path that begins with the given text. -/
def Reports (path : String) (want got : Json) : Option String → Prop
  | none => want.Equals got
  | some m => ∃ p d, FirstDifference (some want) (some got) p d ∧ m = path ++ pathText p ++ d.text

variable {want got : Json}

theorem reports_of_not_alike (h : ¬ Alike want got) :
    Reports path want got (differenceAt path want got) := by
  rw [differenceAt.eq_def]
  split
  · exact (h (.objects _ _)).elim
  · exact (h (.lists _ _)).elim
  · split
    · rename_i hs
      exact (same_iff_of_not_alike h).mp hs
    · rename_i hs
      have hne : ¬ want.Equals got := fun he => hs ((same_iff_of_not_alike h).mpr he)
      refine ⟨[], .values want got, firstDifference_nil_iff.mpr (.values h hne), ?_⟩
      simp [pathText, Ending.text, toString, String.append_assoc]

theorem reports_part {s : Step} {x y : Json} (he : Entered want got)
    (hs : ∀ t, Step.Before want t s → Option.Rel Equals (part? t want) (part? t got))
    (hx : part? s want = some x) (hy : part? s got = some y)
    (h : Reports (path ++ s.text) x y (some m)) : Reports path want got (some m) := by
  obtain ⟨p, d, hd, rfl⟩ := h
  rw [← hx, ← hy] at hd
  refine ⟨s :: p, d, firstDifference_cons_iff.mpr ⟨he, hs, hd⟩, ?_⟩
  simp only [pathText, String.append_assoc]

theorem reports_end {s : Step} {d : Ending} (he : Entered want got)
    (hs : ∀ t, Step.Before want t s → Option.Rel Equals (part? t want) (part? t got))
    (hd : d.Holds (part? s want) (part? s got)) :
    Reports path want got (some (path ++ s.text ++ d.text)) := by
  refine ⟨[s], d, firstDifference_cons_iff.mpr ⟨he, hs, firstDifference_nil_iff.mpr hd⟩, ?_⟩
  simp [pathText]

def PartReports (part : Json) : Prop :=
  ∀ path got, got.Ordered → Reports path part got (differenceAt path part got)

theorem equals_of_agrees {want got : Fields Json} (h : ∀ field ∈ want, Agrees got field)
    (hn : ∀ field ∈ got, Fields.contains field.1 want = true) :
    (Json.object want).Equals (.object got) := by
  refine .object (fun name => ?_) fun name x y hx hy => ?_
  · rw [Bool.eq_iff_iff]
    constructor
    · intro hc
      obtain ⟨x, hx⟩ := Option.isSome_iff_exists.mp hc
      obtain ⟨g, hg, -⟩ := h _ (Fields.mem_of_get? hx)
      rw [Fields.contains, hg, Option.isSome_some]
    · intro hc
      obtain ⟨y, hy⟩ := Option.isSome_iff_exists.mp hc
      exact hn _ (Fields.mem_of_get? hy)
  · obtain ⟨g, hg, he⟩ := h _ (Fields.mem_of_get? hx)
    cases hg.symm.trans hy
    exact he

theorem agrees_of_unreported {field : String × Json} {got : Fields Json}
    (hpart : PartReports field.2) (hg : (Json.object got).Ordered)
    (h : FieldUnreported path got field) : Agrees got field := by
  obtain ⟨g, hget, hd⟩ := h
  have hr := hpart (path ++ (Step.key field.1).text) g (hg.get? hget)
  rw [hd] at hr
  exact ⟨g, hget, hr⟩

theorem reports_expected {want got : Fields Json} (hw : Fields.Ordered want)
    (hparts : ∀ field ∈ want, PartReports field.2) (hg : (Json.object got).Ordered)
    (h : differenceInFields path want got = some m) :
    Reports path (.object want) (.object got) (some m) := by
  obtain ⟨before, n, w, after, rfl, hb, hfield⟩ := exists_of_differenceInFields h
  have hbefore : ∀ field ∈ before, Agrees got field := fun field hf =>
    agrees_of_unreported (hparts field (List.mem_append_left _ hf)) hg (hb field hf)
  have hearlier := fun t => rel_before_expected (s := t) hw hbefore
  have hn : part? (.key n) (.object (before ++ (n, w) :: after)) = some w := hw.get?_append_cons
  rcases hfield with ⟨hmissing, rfl⟩ | ⟨g, hget, hd⟩
  · have hend : Ending.missing.Holds (part? (.key n) (.object (before ++ (n, w) :: after)))
        (part? (.key n) (.object got)) := by
      rw [hn, part?, hmissing]
      exact .missing w
    exact reports_end (.objects _ _) hearlier hend
  · have hr := hparts (n, w) (by simp) (path ++ (Step.key n).text) g (hg.get? hget)
    rw [hd] at hr
    exact reports_part (.objects _ _) hearlier hn hget hr

theorem reports_unexpected {want got : Fields Json} {n : String}
    (hall : ∀ field ∈ want, Agrees got field) (hg : Fields.Ordered got)
    (h : unexpected? want got = some n) :
    Reports path (.object want) (.object got) (some s!"{path}.{n} is unexpected") := by
  obtain ⟨before, y, after, rfl, hn, hb⟩ := exists_of_unexpected? h
  have hearlier := fun t => rel_before_unexpected (s := t) hn hall hg hb
  have hend : Ending.unexpected.Holds (part? (.key n) (.object want))
      (part? (.key n) (.object (before ++ (n, y) :: after))) := by
    rw [part?, part?, hg.get?_append_cons,
      Option.isNone_iff_eq_none.mp (Option.isSome_eq_false_iff.mp hn)]
    exact .unexpected y
  have hr : Reports path (.object want) (.object (before ++ (n, y) :: after))
      (some (path ++ (Step.key n).text ++ Ending.unexpected.text)) :=
    reports_end (.objects _ _) hearlier hend
  rwa [← text_key] at hr

theorem reports_objects {want got : Fields Json} (hw : Fields.Ordered want)
    (hparts : ∀ field ∈ want, PartReports field.2) (hg : (Json.object got).Ordered) :
    Reports path (.object want) (.object got) (differenceAt path (.object want) (.object got)) := by
  rw [differenceAt]
  cases hf : differenceInFields path want got with
  | some m => exact reports_expected hw hparts hg hf
  | none =>
    have hall : ∀ field ∈ want, Agrees got field := fun field hfield =>
      agrees_of_unreported (hparts field hfield) hg
        (differenceInFields_eq_none_iff.mp hf field hfield)
    cases hu : unexpected? want got with
    | none => exact equals_of_agrees hall (unexpected?_eq_none_iff.mp hu)
    | some n =>
      cases hg with
      | object hordered => exact reports_unexpected hall hordered hu

theorem reports_lists {wants gots : List Json} (hl : wants.length = gots.length)
    (hparts : ∀ want ∈ wants, PartReports want) (hg : ∀ got ∈ gots, got.Ordered) :
    Reports path (.array wants) (.array gots) (differenceInItems path 0 wants gots) := by
  have hequal : ∀ i, ItemUnreported path 0 wants gots i →
      ∀ x y, wants[i]? = some x → gots[i]? = some y → x.Equals y := by
    intro i hi x y hx hy
    have hr := hparts x (List.mem_of_getElem? hx) (path ++ (Step.index (0 + i)).text) y
      (hg y (List.mem_of_getElem? hy))
    rwa [hi x y hx hy] at hr
  cases hd : differenceInItems path 0 wants gots with
  | none => exact .array hl fun i => hequal i (differenceInItems_eq_none_iff.mp hd i)
  | some m =>
    obtain ⟨i, x, y, hx, hy, hi, hb⟩ := exists_of_differenceInItems hd
    have hearlier : ∀ t, Step.Before (.array wants) t (.index i) →
        Option.Rel Equals (part? t (.array wants)) (part? t (.array gots)) := by
      rintro t (_ | _ | _ | hlt)
      exact rel_item hl (hequal _ (hb _ hlt))
    have hr := hparts x (List.mem_of_getElem? hx) (path ++ (Step.index (0 + i)).text) y
      (hg y (List.mem_of_getElem? hy))
    rw [hi, Nat.zero_add] at hr
    exact reports_part (.lists hl) hearlier hx hy hr

theorem Ordered.reports (hw : want.Ordered) : PartReports want := by
  induction hw with
  | @array wants _ ih =>
    intro path got hg
    cases hg with
    | @array gots hgots =>
      rw [differenceAt]
      split
      · rename_i hl
        have hd : (Ending.count gots.length wants.length).Holds (some (.array wants))
            (some (.array gots)) := .count hl
        refine ⟨[], _, firstDifference_nil_iff.mpr hd, ?_⟩
        simp [pathText, Ending.text, toString, String.append_assoc]
      · rename_i hl
        exact reports_lists (not_not.mp hl) ih hgots
    | _ => exact reports_of_not_alike (by rintro ⟨⟩)
  | object hordered _ ih =>
    intro path got hg
    cases got with
    | object gots => exact reports_objects hordered ih hg
    | _ => exact reports_of_not_alike (by rintro ⟨⟩)
  | _ =>
    intro path got _
    exact reports_of_not_alike (by rintro ⟨⟩)

/-! ## The report of two values -/

theorem difference_eq_none_iff (hw : want.Ordered) (hg : got.Ordered) :
    difference want got = none ↔ want.Equals got := by
  have hr : Reports "$" want got (difference want got) := hw.reports "$" got hg
  constructor
  · intro h
    rwa [h] at hr
  · intro he
    cases hd : difference want got with
    | none => rfl
    | some m =>
      rw [hd] at hr
      obtain ⟨p, d, hfirst, -⟩ := hr
      exact (hfirst.differs.not_rel (rel_along? (.some he) p)).elim

theorem difference_eq_some_iff (hw : want.Ordered) (hg : got.Ordered) :
    difference want got = some m ↔
      ∃ p d, FirstDifference (some want) (some got) p d ∧ m = "$" ++ pathText p ++ d.text := by
  have hr : Reports "$" want got (difference want got) := hw.reports "$" got hg
  constructor
  · intro h
    rwa [h] at hr
  · rintro ⟨p, d, hfirst, rfl⟩
    cases hd : difference want got with
    | none =>
      have he := (difference_eq_none_iff hw hg).mp hd
      exact (hfirst.differs.not_rel (rel_along? (.some he) p)).elim
    | some m =>
      rw [hd] at hr
      obtain ⟨p', d', hfirst', rfl⟩ := hr
      obtain ⟨rfl, rfl⟩ := hfirst.unique hfirst'
      rfl

end Json

namespace Assertion

theorem json_eq_pass_iff {spec : Json} {call : CallContext} {env : Environment}
    (henv : env.Ordered) : Assertion.json spec call env = .ok .pass ↔
      ∃ response got, call.response = some response ∧ response.json? = some got ∧
        (env.expandValue spec).Equals got := by
  rw [Assertion.json, CallContext.requireResponse]
  cases hc : call.response with
  | none => simp [bind, Except.bind]
  | some response =>
    cases hj : response.json? with
    | none => simp [bind, Except.bind, hj, pure, Except.pure]
    | some got =>
      have hiff := Json.difference_eq_none_iff (henv.expandValue spec)
        (Response.ordered_of_json? hj)
      cases hd : Json.difference (env.expandValue spec) got with
      | none => simp [bind, Except.bind, hj, hd, pure, Except.pure, ← hiff]
      | some m => simp [bind, Except.bind, hj, hd, pure, Except.pure, ← hiff]

end Assertion

/-- Nothing is reported of two values just if they are equal, as values and as data, and a text is
reported just if it is the path to their first difference and what is wrong there. So the assertion
of a value holds just if the body of the response is JSON and equal to the expanded value. -/
theorem Json.difference_iff_firstDifference :
    (∀ want got : Json, want.Ordered → got.Ordered →
      (difference want got = none ↔ want.Equals got) ∧
      (want.same got = true ↔ want.Equals got) ∧
      ∀ m, difference want got = some m ↔
        ∃ p d, FirstDifference (some want) (some got) p d ∧ m = "$" ++ pathText p ++ d.text) ∧
    ∀ (spec : Json) (call : CallContext) (env : Environment), env.Ordered →
      (Assertion.json spec call env = .ok .pass ↔
        ∃ response got, call.response = some response ∧ response.json? = some got ∧
          (env.expandValue spec).Equals got) := by
  constructor
  · intro want got hw hg
    exact ⟨difference_eq_none_iff hw hg, hw.same_iff hg, fun m => difference_eq_some_iff hw hg⟩
  · intro spec call env henv
    exact Assertion.json_eq_pass_iff henv

theorem Json.difference_iff_firstDifference_nested :
    (∃ p d, FirstDifference
        (some (.object [("a", .array [.ofNat 1, .ofNat 2]), ("b", .null)]))
        (some (.object [("a", .array [.ofNat 1, .ofNat 3]), ("c", .null)])) p d ∧
      "$.a[1]: expected 2, got 3" = "$" ++ pathText p ++ d.text) ∧
    ∃ response got, some (Response.mk 200 [] "[1]") = some response ∧
      response.json? = some got ∧
      (Environment.empty.expandValue (.array [.ofNat 1])).Equals got := by
  have hw : (Json.object [("a", .array [.ofNat 1, .ofNat 2]), ("b", .null)]).Ordered :=
    ordered_normalise (.object [("a", .array [.ofNat 1, .ofNat 2]), ("b", .null)])
  have hg : (Json.object [("a", .array [.ofNat 1, .ofNat 3]), ("c", .null)]).Ordered :=
    ordered_normalise (.object [("a", .array [.ofNat 1, .ofNat 3]), ("c", .null)])
  have henv : Environment.empty.Ordered := by
    intro name v hv
    cases hv
  constructor
  · exact ((Json.difference_iff_firstDifference.1 _ _ hw hg).2.2 _).mp (by decide)
  · have hpass := Json.difference_iff_firstDifference.2 (.array [.ofNat 1])
      ⟨⟨none, [], []⟩, none, some ⟨200, [], "[1]"⟩⟩ .empty henv
    exact hpass.mp (by rfl)

end ApiScript
