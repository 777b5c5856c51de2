import ApiScript.Table
import Mathlib.Tactic.Common

/-! # What fields hold -/

namespace ApiScript.Fields

variable {α : Type} {fields pairs : Fields α} {name other : String} {value : α}

@[simp] theorem get?_nil : get? name ([] : Fields α) = none := rfl

theorem get?_cons : get? other ((name, value) :: fields) =
    if name = other then some value else get? other fields := rfl

theorem get?_insert (fields : Fields α) : get? other (insert name value fields) =
    if name = other then some value else get? other fields := by
  induction fields with
  | nil => rfl
  | cons field rest ih =>
    obtain ⟨n, v⟩ := field
    rw [insert]
    split
    · rename_i h
      subst h
      rw [get?_cons, get?_cons]
      split <;> rfl
    · split
      · rw [get?_cons]
      · rename_i h _
        rw [get?_cons, ih, get?_cons]
        grind

theorem get?_eq_none_of_notMem (h : name ∉ names fields) : get? name fields = none := by
  induction fields with
  | nil => rfl
  | cons field rest ih =>
    have hn : field.1 ≠ name := fun hn => h (List.mem_cons.mpr (.inl hn.symm))
    rw [get?, if_neg hn, ih fun hr => h (List.mem_cons_of_mem _ hr)]

theorem mem_of_get? (h : get? name fields = some value) : (name, value) ∈ fields := by
  induction fields with
  | nil => cases h
  | cons field rest ih =>
    rw [get?] at h
    split at h
    · rename_i hn
      cases h
      exact hn ▸ List.mem_cons_self
    · exact List.mem_cons_of_mem _ (ih h)

instance : Decidable (Ordered fields) :=
  inferInstanceAs (Decidable ((names fields).Pairwise (· < ·)))

theorem Ordered.nodup (h : Ordered fields) : (names fields).Nodup :=
  List.Pairwise.imp (fun hlt => by rintro rfl; exact String.lt_irrefl _ hlt) h

theorem get?_insertAll (h : (names pairs).Nodup) (fields : Fields α) :
    get? name (insertAll pairs fields) = (get? name pairs).or (get? name fields) := by
  induction pairs generalizing fields with
  | nil => rfl
  | cons pair rest ih =>
    obtain ⟨n, v⟩ := pair
    obtain ⟨hn, hr⟩ := List.nodup_cons.mp h
    change get? name (insertAll rest (insert n v fields)) = _
    rw [ih hr, get?_insert, get?_cons]
    split
    · rename_i he
      rw [← he, get?_eq_none_of_notMem hn]
      rfl
    · rfl

/-! ## Order -/

theorem mem_insert {field : String × α} (h : field ∈ insert name value fields) :
    field = (name, value) ∨ field ∈ fields := by
  induction fields with
  | nil => exact .inl (List.mem_singleton.mp h)
  | cons first rest ih =>
    obtain ⟨n, v⟩ := first
    rw [insert] at h
    split at h
    · exact (List.mem_cons.mp h).imp_right (List.mem_cons_of_mem _)
    · split at h
      · exact List.mem_cons.mp h
      · rcases List.mem_cons.mp h with rfl | h
        · exact .inr List.mem_cons_self
        · exact (ih h).imp_right (List.mem_cons_of_mem _)

theorem mem_names_insert (h : other ∈ names (insert name value fields)) :
    other = name ∨ other ∈ names fields := by
  obtain ⟨field, hf, rfl⟩ := List.mem_map.mp h
  exact (mem_insert hf).imp (congrArg Prod.fst) fun hf => List.mem_map_of_mem hf

theorem erase_sublist (name : String) (fields : Fields α) :
    List.Sublist (erase name fields) fields := by
  induction fields with
  | nil => exact .refl _
  | cons field rest ih =>
    rw [erase]
    split
    · exact List.sublist_cons_self _ _
    · exact ih.cons_cons _

theorem Ordered.sublist (h : Ordered fields) (hs : List.Sublist pairs fields) : Ordered pairs :=
  List.Pairwise.sublist (hs.map _) h

theorem Ordered.erase (h : Ordered fields) (name : String) : Ordered (erase name fields) :=
  h.sublist (erase_sublist name fields)

theorem Ordered.insert (h : Ordered fields) (name : String) (value : α) :
    Ordered (insert name value fields) := by
  induction fields with
  | nil => exact List.pairwise_singleton _ _
  | cons field rest ih =>
    obtain ⟨n, v⟩ := field
    obtain ⟨hn, hr⟩ := List.pairwise_cons.mp h
    rw [Fields.insert]
    split
    · rename_i he
      exact List.pairwise_cons.mpr ⟨he ▸ hn, hr⟩
    · rename_i hne
      split
      · rename_i hlt
        refine List.pairwise_cons.mpr ⟨fun other ho => ?_, h⟩
        rcases List.mem_cons.mp ho with rfl | ho
        · exact hlt
        · exact String.lt_trans hlt (hn other ho)
      · rename_i hge
        refine List.pairwise_cons.mpr ⟨fun other ho => ?_, ih hr⟩
        rcases mem_names_insert ho with rfl | ho
        · refine String.not_le.mp fun hle => hne ?_
          exact String.le_antisymm hle (String.not_lt.mp hge)
        · exact hn other ho

theorem Ordered.insertAll (h : Ordered fields) (pairs : List (String × α)) :
    Ordered (insertAll pairs fields) := by
  induction pairs generalizing fields with
  | nil => exact h
  | cons pair rest ih => exact ih (h.insert pair.1 pair.2)

theorem ordered_ofList (pairs : List (String × α)) : Ordered (ofList pairs) := by
  have hn : Ordered ([] : Fields α) := List.Pairwise.nil
  exact hn.insertAll pairs

/-! ## Pairs with names of their own -/

theorem insert_perm (h : name ∉ names fields) :
    (insert name value fields).Perm ((name, value) :: fields) := by
  induction fields with
  | nil => exact .refl _
  | cons field rest ih =>
    obtain ⟨n, v⟩ := field
    obtain ⟨hn, hr⟩ := not_or.mp (List.mem_cons.not.mp h)
    rw [insert, if_neg hn]
    split
    · exact .refl _
    · exact ((ih hr).cons _).trans (.swap _ _ _)

theorem insertAll_perm (h : (names (pairs ++ fields)).Nodup) :
    (insertAll pairs fields).Perm (pairs ++ fields) := by
  induction pairs generalizing fields with
  | nil => exact .refl _
  | cons pair rest ih =>
    have hm : (rest ++ pair :: fields).Perm (pair :: rest ++ fields) := List.perm_middle
    have hn : (names (rest ++ pair :: fields)).Nodup := (hm.map _).nodup_iff.mpr h
    have hi : (insert pair.1 pair.2 fields).Perm (pair :: fields) := by
      refine insert_perm fun hp => (List.nodup_cons.mp h).1 ?_
      obtain ⟨field, hf, he⟩ := List.mem_map.mp hp
      exact List.mem_map.mpr ⟨field, List.mem_append_right rest hf, he⟩
    have hr := hi.append_left rest
    exact (ih ((hr.map _).nodup_iff.mpr hn)).trans (hr.trans hm)

theorem ofList_perm (h : (names pairs).Nodup) : (ofList pairs).Perm pairs := by
  have hp : (insertAll pairs []).Perm (pairs ++ []) := insertAll_perm (by rwa [List.append_nil])
  rwa [List.append_nil] at hp

theorem Ordered.pairwise (h : Ordered fields) : fields.Pairwise fun p q => p.1 < q.1 := by
  rwa [Ordered, names, List.pairwise_map] at h

theorem Ordered.get?_eq_some_iff (h : Ordered fields) :
    get? name fields = some value ↔ (name, value) ∈ fields := by
  refine ⟨mem_of_get?, fun hm => ?_⟩
  induction fields with
  | nil => cases hm
  | cons field rest ih =>
    obtain ⟨n, v⟩ := field
    obtain ⟨hn, hr⟩ := List.pairwise_cons.mp h
    rw [get?_cons]
    rcases List.mem_cons.mp hm with hm | hm
    · cases hm
      exact if_pos rfl
    · have hne : n ≠ name := by
        rintro rfl
        exact String.lt_irrefl n (hn n (List.mem_map.mpr ⟨(n, value), hm, rfl⟩))
      rw [if_neg hne]
      exact ih hr hm

theorem Ordered.get?_append_cons {before after : Fields α}
    (h : Ordered (before ++ (name, value) :: after)) :
    get? name (before ++ (name, value) :: after) = some value :=
  h.get?_eq_some_iff.mpr (List.mem_append_right _ List.mem_cons_self)

theorem contains_cons_self : contains name ((name, value) :: fields) = true := by
  rw [contains, get?_cons, if_pos rfl, Option.isSome_some]

theorem Ordered.eq_or_lt_of_contains (h : Ordered ((name, value) :: fields))
    (hc : contains other ((name, value) :: fields) = true) : other = name ∨ name < other := by
  obtain ⟨v, hv⟩ := Option.isSome_iff_exists.mp hc
  rcases List.mem_cons.mp (mem_of_get? hv) with he | hm
  · exact .inl (congrArg Prod.fst he)
  · exact .inr ((List.pairwise_cons.mp h.pairwise).1 _ hm)

theorem Ordered.mem_of_lt {before after : Fields α} {first : String × α} {field : String × α}
    (h : Ordered (before ++ field :: after)) (hm : first ∈ before ++ field :: after)
    (hlt : first.1 < field.1) : first ∈ before := by
  obtain ⟨-, hr, -⟩ := List.pairwise_append.mp h.pairwise
  rcases List.mem_append.mp hm with hm | hm
  · exact hm
  · rcases List.mem_cons.mp hm with rfl | hm
    · exact (String.lt_irrefl _ hlt).elim
    · exact (String.lt_asymm hlt ((List.pairwise_cons.mp hr).1 _ hm)).elim

theorem Ordered.notMem_names_after {before after : Fields α} {field : String × α}
    (h : Ordered (before ++ field :: after)) : field.1 ∉ names after := by
  obtain ⟨-, hafter, -⟩ := List.pairwise_append.mp h.pairwise
  intro hm
  obtain ⟨other, ho, he⟩ := List.mem_map.mp hm
  exact String.lt_irrefl _ (he ▸ (List.pairwise_cons.mp hafter).1 other ho)

/-- Of fields in order, those before one are the ones with a smaller name. -/
theorem Ordered.filter_lt {before after : Fields α} {field : String × α}
    (h : Ordered (before ++ field :: after)) :
    (before ++ field :: after).filter (fun other => other.1 < field.1) = before := by
  obtain ⟨-, hafter, hbefore⟩ := List.pairwise_append.mp h.pairwise
  have hlt : before.filter (fun other => other.1 < field.1) = before :=
    List.filter_eq_self.mpr fun other ho =>
      decide_eq_true (hbefore other ho field List.mem_cons_self)
  have hge : (field :: after).filter (fun other => other.1 < field.1) = [] := by
    refine List.filter_eq_nil_iff.mpr (List.forall_mem_cons.mpr ⟨?_, fun other ho hlt => ?_⟩)
    · simp
    · exact String.lt_asymm (of_decide_eq_true hlt) ((List.pairwise_cons.mp hafter).1 other ho)
  rw [List.filter_append, hlt, hge, List.append_nil]

theorem Ordered.eq_of_perm (h : Ordered fields) (h' : Ordered pairs) (hp : fields.Perm pairs) :
    fields = pairs :=
  hp.eq_of_pairwise (fun _ _ _ _ hlt hgt => (String.lt_asymm hlt hgt).elim) h.pairwise h'.pairwise

/-- Fields in order are what comes of putting them together in any order. -/
theorem Ordered.ofList_eq (h : Ordered fields) (hp : pairs.Perm fields) : ofList pairs = fields :=
  (ordered_ofList pairs).eq_of_perm h
    ((ofList_perm ((hp.map _).nodup_iff.mpr h.nodup)).trans hp)

end ApiScript.Fields
