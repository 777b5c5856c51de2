import ApiScript.Proofs.Fields
import ApiScript.Proofs.Plugin.Attempts

/-! # Binding entry by entry

Entries are bound one after the other, up to the first that fails. The value of each is found among
the variables that those before it have bound; what it binds no entry of another name changes.
-/

namespace ApiScript.Binding

variable {find : String → Json → Environment → Except Trouble Json} {name : String}
  {spec value : Json} {fields before rest : Fields Json} {x y : Variables}
  {env next last : Environment} {Gives : Environment → String → Json → Json → Prop}
  {Lacks : Environment → String → Json → Trouble → Prop}

theorem run_bindEach_cons : (bindEach find ((name, spec) :: rest)).run.run x =
    match find name spec x.env with
    | .error trouble => (.error trouble, x)
    | .ok value =>
      match x.bind name value with
      | .error f => (.error (Trouble.ofFault f), x)
      | .ok y => (bindEach find rest).run.run y := by
  change Binding.run (lift (find name spec x.env) >>= fun value =>
    Binding.bind name value >>= fun _ => bindEach find rest) x = _
  cases find name spec x.env with
  | error trouble => rfl
  | ok value =>
    change Binding.run (.bindThen name value _) x = _
    rw [Binding.run]
    dsimp only
    cases x.bind name value <;> rfl

theorem run_bindEach_append (h : (bindEach find before).run.run x = (.ok (), y)) :
    (bindEach find (before ++ rest)).run.run x = (bindEach find rest).run.run y := by
  induction before generalizing x with
  | nil =>
    cases h
    rfl
  | cons field before ih =>
    obtain ⟨name, spec⟩ := field
    rw [run_bindEach_cons] at h
    rw [List.cons_append, run_bindEach_cons]
    cases hf : find name spec x.env with
    | error trouble =>
      rw [hf] at h
      cases h
    | ok value =>
      rw [hf] at h
      dsimp only at h ⊢
      cases hb : x.bind name value with
      | error f =>
        rw [hb] at h
        cases h
      | ok z =>
        rw [hb] at h
        exact ih h

/-! ## What comes of it -/

/-- Entries are bound one after the other, each to the value that it is given among the variables
which those before it have bound. -/
inductive InTurn (Gives : Environment → String → Json → Json → Prop) :
    Fields Json → Environment → Environment → Prop where
  | nil {env : Environment} : InTurn Gives [] env env
  | cons {name : String} {spec value : Json} {rest : Fields Json} {env next last : Environment} :
      Gives env name spec value → env.bind name value = .ok next → InTurn Gives rest next last →
      InTurn Gives ((name, spec) :: rest) env last

/-- An entry fails among some variables: it has no value, or its name is reserved. -/
inductive Fails (Gives : Environment → String → Json → Json → Prop)
    (Lacks : Environment → String → Json → Trouble → Prop) (env : Environment) (name : String)
    (spec : Json) : Trouble → Prop where
  | lacking {trouble : Trouble} : Lacks env name spec trouble →
      Fails Gives Lacks env name spec trouble
  | reserved {value : Json} : Gives env name spec value → Environment.isReserved name = true →
      Fails Gives Lacks env name spec (Trouble.ofFault (.reservedName name))

/-- All entries are bound, or those before the first one that fails. -/
inductive Enters (Gives : Environment → String → Json → Json → Prop)
    (Lacks : Environment → String → Json → Trouble → Prop) (fields : Fields Json)
    (env : Environment) : Except Trouble Unit → Environment → Prop where
  | all {last : Environment} : InTurn Gives fields env last →
      Enters Gives Lacks fields env (.ok ()) last
  | upTo {before after : Fields Json} {name : String} {spec : Json} {trouble : Trouble}
      {last : Environment} : fields = before ++ (name, spec) :: after →
      InTurn Gives before env last → Fails Gives Lacks last name spec trouble →
      Enters Gives Lacks fields env (.error trouble) last

/-- `Gives` and `Lacks` say what is found for an entry. -/
structure Finds (find : String → Json → Environment → Except Trouble Json)
    (Gives : Environment → String → Json → Json → Prop)
    (Lacks : Environment → String → Json → Trouble → Prop) : Prop where
  ok_iff : ∀ env name spec value, find name spec env = .ok value ↔ Gives env name spec value
  error_iff : ∀ env name spec trouble,
    find name spec env = .error trouble ↔ Lacks env name spec trouble

theorem Enters.cons {result : Except Trouble Unit} (hg : Gives env name spec value)
    (hb : env.bind name value = .ok next) (h : Enters Gives Lacks rest next result last) :
    Enters Gives Lacks ((name, spec) :: rest) env result last := by
  cases h with
  | all h => exact .all (.cons hg hb h)
  | @upTo before after other _ _ _ hf h hfails =>
    rw [hf]
    exact .upTo (List.cons_append.symm) (.cons hg hb h) hfails

theorem bind_cases (v : Variables) (name : String) (value : Json) :
    (Environment.isReserved name = true ∧ v.bind name value = .error (.reservedName name)) ∨
      ∃ w, v.bind name value = .ok w ∧ v.env.bind name value = .ok w.env := by
  by_cases h : Environment.isReserved name = true
  · exact .inl ⟨h, bind_of_reserved h v value⟩
  · refine .inr ?_
    rw [Variables.bind, Environment.bind, if_neg h]
    exact ⟨_, rfl, rfl⟩

theorem Finds.enters (h : Finds find Gives Lacks) (fields : Fields Json) (x : Variables) :
    Enters Gives Lacks fields x.env ((bindEach find fields).run.run x).1
      ((bindEach find fields).run.run x).2.env := by
  induction fields generalizing x with
  | nil => exact .all .nil
  | cons field rest ih =>
    obtain ⟨name, spec⟩ := field
    rw [run_bindEach_cons]
    cases hf : find name spec x.env with
    | error trouble => exact .upTo rfl .nil (.lacking ((h.error_iff _ _ _ _).mp hf))
    | ok value =>
      have hg := (h.ok_iff _ _ _ _).mp hf
      dsimp only
      rcases bind_cases x name value with ⟨hr, hb⟩ | ⟨y, hb, hy⟩
      · rw [hb]
        exact .upTo rfl .nil (.reserved hg hr)
      · rw [hb]
        exact .cons hg hy (ih y)

/-! ## Nothing else can come of it -/

theorem InTurn.exists_run (h : Finds find Gives Lacks) (ht : InTurn Gives fields x.env last) :
    ∃ y, (bindEach find fields).run.run x = (.ok (), y) ∧ y.env = last := by
  induction fields generalizing x with
  | nil =>
    cases ht
    exact ⟨x, rfl, rfl⟩
  | cons field rest ih =>
    cases ht with
    | @cons name _ value _ _ next _ hg hb ht =>
      obtain ⟨y, hy, rfl⟩ : ∃ y, x.bind name value = .ok y ∧ y.env = next := by
        rw [Variables.bind, hb]
        exact ⟨_, rfl, rfl⟩
      rw [run_bindEach_cons, (h.ok_iff _ _ _ _).mpr hg]
      dsimp only
      rw [hy]
      exact ih ht

theorem Enters.exists_run {result : Except Trouble Unit} (h : Finds find Gives Lacks)
    (he : Enters Gives Lacks fields x.env result last) :
    ∃ y, (bindEach find fields).run.run x = (result, y) ∧ y.env = last := by
  cases he with
  | all ht => exact ht.exists_run h
  | upTo hf ht hfails =>
    obtain ⟨y, hy, rfl⟩ := ht.exists_run h
    refine ⟨y, ?_, rfl⟩
    rw [hf, run_bindEach_append hy, run_bindEach_cons]
    cases hfails with
    | lacking hl => rw [(h.error_iff _ _ _ _).mpr hl]
    | reserved hg hr =>
      rw [(h.ok_iff _ _ _ _).mpr hg]
      dsimp only
      rw [bind_of_reserved hr]

/-! ## What stays -/

namespace InTurn

theorem append_iff : InTurn Gives (before ++ rest) env last ↔
    ∃ next, InTurn Gives before env next ∧ InTurn Gives rest next last := by
  induction before generalizing env with
  | nil =>
    refine ⟨fun h => ⟨env, .nil, h⟩, ?_⟩
    rintro ⟨_, hb, h⟩
    cases hb
    exact h
  | cons field before ih =>
    constructor
    · intro h
      cases h with
      | cons hg hb h =>
        obtain ⟨next, hbefore, hrest⟩ := ih.mp h
        exact ⟨next, .cons hg hb hbefore, hrest⟩
    · rintro ⟨next, hbefore, hrest⟩
      cases hbefore with
      | cons hg hb hbefore => exact .cons hg hb (ih.mpr ⟨next, hbefore, hrest⟩)

theorem get?_of_notMem (h : InTurn Gives fields env last) (hn : name ∉ Fields.names fields) :
    last.get? name = env.get? name := by
  induction h with
  | nil => rfl
  | cons _ hb _ ih =>
    obtain ⟨hne, hrest⟩ := not_or.mp (List.mem_cons.not.mp hn)
    rw [ih hrest, Environment.get?_of_bind hb (Ne.symm hne)]

theorem not_isReserved (h : InTurn Gives fields env last) (hn : name ∈ Fields.names fields) :
    Environment.isReserved name = false := by
  induction h with
  | nil => cases hn
  | cons _ hb _ ih =>
    rcases List.mem_cons.mp hn with rfl | hn
    · refine Bool.eq_false_iff.mpr fun hr => ?_
      rw [Environment.bind, if_pos hr] at hb
      cases hb
    · exact ih hn

theorem exists_given (h : InTurn Gives (before ++ (name, spec) :: rest) env last)
    (hn : name ∉ Fields.names rest) : ∃ next value, InTurn Gives before env next ∧
      Gives next name spec value ∧ last.get? name = some value := by
  obtain ⟨next, hbefore, h⟩ := append_iff.mp h
  cases h with
  | cons hg hb hrest =>
    refine ⟨next, _, hbefore, hg, ?_⟩
    rw [hrest.get?_of_notMem hn, Environment.get?_bind_self hb]

end InTurn

end ApiScript.Binding
