import ApiScript.Table
import Mathlib.Tactic.Common

/-! # What a table holds -/

namespace ApiScript.Table

variable {α : Type} {t : Table α} {name other : String} {value : α}

theorem find?_put (entries : List (String × α)) :
    find? other (put name value entries) =
      if name = other then some value else find? other entries := by
  induction entries with
  | nil => simp only [put, find?]
  | cons entry rest ih =>
    obtain ⟨n, v⟩ := entry
    rw [put]
    by_cases hn : n = name
    · subst hn
      rw [if_pos rfl, find?, find?]
      split <;> rfl
    · rw [if_neg hn, find?, find?, ih]
      grind

theorem get?_insert :
    (t.insert name value).get? other = if name = other then some value else t.get? other :=
  find?_put t.entries

theorem put_of_notMem {entries : List (String × α)} (h : name ∉ entries.map (·.1)) :
    put name value entries = entries ++ [(name, value)] := by
  induction entries with
  | nil => rfl
  | cons entry rest ih =>
    obtain ⟨hn, hr⟩ := not_or.mp (List.mem_cons.not.mp h)
    rw [put, if_neg (Ne.symm hn), ih hr, List.cons_append]

theorem find?_of_mem {entries : List (String × α)} (hn : (entries.map (·.1)).Nodup)
    (h : (name, value) ∈ entries) : find? name entries = some value := by
  induction entries with
  | nil => cases h
  | cons entry rest ih =>
    obtain ⟨hfirst, hrest⟩ := List.nodup_cons.mp hn
    rw [find?]
    rcases List.mem_cons.mp h with rfl | h
    · exact if_pos rfl
    · rw [if_neg fun he => hfirst (List.mem_map.mpr ⟨_, h, he.symm⟩), ih hrest h]

theorem find?_append {entries : List (String × α)} (h : find? name entries = some value)
    (rest : List (String × α)) : find? name (entries ++ rest) = some value := by
  induction entries with
  | nil => cases h
  | cons entry entries ih =>
    rw [List.cons_append, find?]
    rw [find?] at h
    split
    · rwa [if_pos ‹_›] at h
    · rw [if_neg ‹_›] at h
      exact ih h

theorem contains_insert :
    (t.insert name value).contains other = (name = other || t.contains other) := by
  rw [contains, contains, get?_insert]
  by_cases h : name = other <;> simp [h]

theorem get?_erase :
    (t.erase name).get? other = if name = other then none else t.get? other := by
  obtain ⟨entries⟩ := t
  change find? other (entries.filter fun e => e.1 ≠ name) =
    if name = other then none else find? other entries
  induction entries with
  | nil => simp [find?]
  | cons entry rest ih =>
    obtain ⟨n, v⟩ := entry
    rw [List.filter_cons]
    simp only [find?]
    split <;> grind [find?]

theorem mem_of_get? (h : t.get? name = some value) : (name, value) ∈ t.entries := by
  obtain ⟨entries⟩ := t
  change find? name entries = some value at h
  induction entries with
  | nil => cases h
  | cons entry rest ih =>
    rw [find?] at h
    split at h
    · rename_i hn
      cases h
      exact hn ▸ List.mem_cons_self
    · exact List.mem_cons_of_mem _ (ih h)

theorem insert_of_get? (h : t.get? name = some value) : t.insert name value = t := by
  obtain ⟨entries⟩ := t
  change find? name entries = some value at h
  refine congrArg Table.mk ?_
  induction entries with
  | nil => cases h
  | cons entry rest ih =>
    obtain ⟨n, v⟩ := entry
    rw [find?] at h
    rw [put]
    split at h
    · rename_i hn
      cases h
      rw [if_pos hn, hn]
    · rename_i hn
      rw [if_neg hn, ih h]

theorem erase_insert : (t.insert name value).erase name = t.erase name := by
  obtain ⟨entries⟩ := t
  change Table.mk ((put name value entries).filter fun e => e.1 ≠ name) =
    Table.mk (entries.filter fun e => e.1 ≠ name)
  congr 1
  induction entries with
  | nil => simp [put]
  | cons entry rest ih =>
    rw [put]
    split
    · rename_i hn
      simp [hn]
    · rw [List.filter_cons, List.filter_cons, ih]

theorem find?_isSome_iff {entries : List (String × α)} :
    (find? name entries).isSome = true ↔ name ∈ entries.map (·.1) := by
  induction entries with
  | nil => simp [find?]
  | cons entry rest ih =>
    rw [find?, List.map_cons, List.mem_cons, ← ih]
    split
    · rename_i hn
      simp [hn]
    · rename_i hn
      simp [Ne.symm hn]

theorem names_put (entries : List (String × α)) : (put name value entries).map (·.1) =
    if name ∈ entries.map (·.1) then entries.map (·.1) else entries.map (·.1) ++ [name] := by
  induction entries with
  | nil => rfl
  | cons entry rest ih =>
    rw [put]
    split
    · rename_i hn
      simp [hn]
    · rename_i hn
      rw [List.map_cons, ih]
      simp only [List.map_cons, List.mem_cons, Ne.symm hn, false_or]
      split <;> rfl

theorem names_filter (entries : List (String × α)) :
    (entries.filter fun e => e.1 ≠ name).map (·.1) = (entries.map (·.1)).filter (· ≠ name) := by
  rw [List.filter_map]
  rfl

end ApiScript.Table
