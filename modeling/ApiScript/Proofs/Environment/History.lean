import ApiScript.Expansion
import ApiScript.Proofs.Json.Equality
import ApiScript.Proofs.Table
import Mathlib.Data.List.Sort

/-! # Variables and their history

What is bound, to which value and in which order can be told from what was done to each name alone:
a name is bound if the last thing done to it was to bind it, to the value of that time, and stands
where it was first bound since it was last unbound.
-/

namespace ApiScript

/-! ## Values that are replaced or removed -/

namespace Table

variable {α : Type} {entries : List (String × α)} {name : String} {value : α}

def replace (name : String) (value : α) : List (String × α) → Option α × List (String × α)
  | [] => (none, [(name, value)])
  | (n, v) :: rest =>
    if n = name then (some v, (name, value) :: rest)
    else
      let (old, rest) := replace name value rest
      (old, (n, v) :: rest)

def remove (name : String) : List (String × α) → Option α × List (String × α)
  | [] => (none, [])
  | (n, v) :: rest =>
    if n = name then (some v, rest)
    else
      let (old, rest) := remove name rest
      (old, (n, v) :: rest)

theorem replace_eq (entries : List (String × α)) :
    replace name value entries = (find? name entries, put name value entries) := by
  induction entries with
  | nil => rfl
  | cons entry rest ih =>
    rw [replace, find?, put, ih]
    split <;> rfl

theorem filter_of_notMem (h : name ∉ entries.map (·.1)) :
    entries.filter (fun e => e.1 ≠ name) = entries := by
  refine List.filter_eq_self.mpr fun e he => ?_
  rw [decide_eq_true_iff]
  rintro rfl
  exact h (List.mem_map_of_mem he)

theorem remove_eq (h : (entries.map (·.1)).Nodup) :
    remove name entries = (find? name entries, entries.filter fun e => e.1 ≠ name) := by
  induction entries with
  | nil => rfl
  | cons entry rest ih =>
    obtain ⟨hfirst, hrest⟩ := List.nodup_cons.mp h
    rw [remove, find?, ih hrest]
    split
    · rename_i hn
      subst hn
      rw [List.filter_cons_of_neg (by simp), filter_of_notMem hfirst]
    · rename_i hn
      rw [List.filter_cons_of_pos (by simpa using hn)]

end Table

namespace Environment

/-! ## Histories -/

inductive Edit where
  | bind (name : String) (value : Json)
  | unbind (name : String)

namespace Edit

def name : Edit → String
  | .bind name _ => name
  | .unbind name => name

/-- A binding that is refused changes nothing. -/
def apply (env : Environment) : Edit → Environment
  | .bind name value =>
    match env.bind name value with
    | .ok next => next
    | .error _ => env
  | .unbind name => env.unbind name

end Edit

def after (history : List Edit) : Environment := history.foldl Edit.apply empty

variable {history : List Edit} {e : Edit} {name : String} {value : Json}

/-- The last thing done to a name, which is not reserved, was to bind it to a value. -/
def LastBound (history : List Edit) (name : String) (value : Json) : Prop :=
  isReserved name = false ∧ ∃ before later, history = before ++ .bind name value :: later ∧
    ∀ e ∈ later, e.name ≠ name

/-- A name, which is not reserved, was bound when some things had been done, was not unbound later,
and had been unbound since each time it was bound before. -/
def FirstBound (history : List Edit) (name : String) (since : Nat) : Prop :=
  isReserved name = false ∧ ∃ before value later, history = before ++ .bind name value :: later ∧
    before.length = since ∧ .unbind name ∉ later ∧
    ∀ earlier old between, before = earlier ++ .bind name old :: between → .unbind name ∈ between

/-- Names in the order of the times when they were first bound. -/
def InOrder (history : List Edit) (names : List String) : Prop :=
  ∃ since : String → Nat, (∀ name ∈ names, FirstBound history name (since name)) ∧
    names.Pairwise fun m n => since m < since n

/-- What a history leaves: the names to be bound last, each once, with the last value, in the order
in which they were first bound since they were unbound. -/
structure Leaves (history : List Edit) (entries : List (String × Json)) : Prop where
  nodup : (entries.map (·.1)).Nodup
  mem_iff : ∀ name value, (name, value) ∈ entries ↔ LastBound history name value
  inOrder : InOrder history (entries.map (·.1))

/-! ## One thing more -/

theorem after_append (history : List Edit) (e : Edit) :
    after (history ++ [e]) = e.apply (after history) := by
  rw [after, List.foldl_append]
  rfl

theorem lastBound_append : LastBound (history ++ [e]) name value ↔
    (e = .bind name value ∧ isReserved name = false) ∨
      (e.name ≠ name ∧ LastBound history name value) := by
  constructor
  · rintro ⟨hr, before, later, h, hl⟩
    rcases later.eq_nil_or_concat with rfl | ⟨later, last, rfl⟩
    · exact .inl ⟨by simpa using (List.append_inj' h rfl).2, hr⟩
    · rw [List.concat_eq_append, ← List.cons_append, ← List.append_assoc] at h
      obtain ⟨rfl, he⟩ := List.append_inj' h rfl
      cases he
      rw [List.concat_eq_append, List.forall_mem_append] at hl
      exact .inr ⟨hl.2 e List.mem_cons_self, hr, before, later, rfl, hl.1⟩
  · rintro (⟨rfl, hr⟩ | ⟨hn, hr, before, later, rfl, hl⟩)
    · exact ⟨hr, history, [], rfl, nofun⟩
    · refine ⟨hr, before, later ++ [e], by simp, ?_⟩
      rw [List.forall_mem_append]
      exact ⟨hl, by simpa using hn⟩

theorem apply_bind (env : Environment) (hr : isReserved name = false) :
    (Edit.bind name value).apply env = ⟨env.bindings.insert name value⟩ := by
  rw [Edit.apply, Environment.bind, hr]
  rfl

theorem apply_bind_of_reserved (env : Environment) (hr : isReserved name = true) :
    (Edit.bind name value).apply env = env := by
  rw [Edit.apply, Environment.bind, if_pos hr]

theorem get?_after : (after history).get? name = some value ↔ LastBound history name value := by
  induction history using List.reverseRecOn with
  | nil => exact ⟨nofun, fun ⟨_, _, _, h, _⟩ => by simp at h⟩
  | append_singleton history e ih =>
    rw [after_append, lastBound_append, ← ih]
    cases e with
    | unbind other =>
      have hget : ((Edit.unbind other).apply (after history)).get? name =
          if other = name then none else (after history).get? name := Table.get?_erase
      rw [hget, Edit.name]
      split <;> simp_all
    | bind other v =>
      cases hr : isReserved other with
      | true =>
        rw [apply_bind_of_reserved _ hr, Edit.name]
        have hne (h : (after history).get? name = some value) : other ≠ name := by
          rintro rfl
          cases hr.symm.trans (ih.mp h).1
        refine ⟨fun h => .inr ⟨hne h, h⟩, ?_⟩
        rintro (⟨he, hr'⟩ | ⟨-, h⟩)
        · cases he
          cases hr.symm.trans hr'
        · exact h
      | false =>
        have hget : ((Edit.bind other v).apply (after history)).get? name =
            if other = name then some v else (after history).get? name := by
          rw [apply_bind _ hr]
          exact Table.get?_insert
        rw [hget, Edit.name]
        split <;> simp_all

theorem FirstBound.append {since : Nat} (h : FirstBound history name since)
    (he : e ≠ .unbind name) : FirstBound (history ++ [e]) name since := by
  obtain ⟨hr, before, value, later, rfl, hs, hl, hb⟩ := h
  refine ⟨hr, before, value, later ++ [e], by simp, hs, ?_, hb⟩
  simp [hl, he.symm]

theorem FirstBound.lt_length {since : Nat} (h : FirstBound history name since) :
    since < history.length := by
  obtain ⟨-, before, value, later, rfl, rfl, -⟩ := h
  simp

theorem exists_lastBound (before : List Edit) (value : Json) {later : List Edit}
    (hr : isReserved name = false) (hl : .unbind name ∉ later) :
    ∃ last, LastBound (before ++ .bind name value :: later) name last := by
  induction later using List.reverseRecOn with
  | nil => exact ⟨value, hr, before, [], rfl, nofun⟩
  | append_singleton later e ih =>
    rw [List.mem_append, not_or] at hl
    obtain ⟨last, hlast⟩ := ih hl.1
    rw [← List.cons_append, ← List.append_assoc]
    by_cases hn : e.name = name
    · cases e with
      | bind other v =>
        cases hn
        exact ⟨v, lastBound_append.mpr (.inl ⟨rfl, hr⟩)⟩
      | unbind other =>
        cases hn
        exact (hl.2 List.mem_cons_self).elim
    · exact ⟨last, lastBound_append.mpr (.inr ⟨hn, hlast⟩)⟩

theorem firstBound_append (hr : isReserved name = false)
    (hn : ∀ last, ¬ LastBound history name last) :
    FirstBound (history ++ [.bind name value]) name history.length := by
  refine ⟨hr, history, value, [], rfl, rfl, nofun, fun earlier old between h => ?_⟩
  by_contra hb
  obtain ⟨last, hlast⟩ := exists_lastBound earlier old hr hb
  exact hn last (h ▸ hlast)

theorem InOrder.append {names : List String} (h : InOrder history names)
    (he : ∀ name ∈ names, e ≠ .unbind name) : InOrder (history ++ [e]) names := by
  obtain ⟨since, hfirst, hsorted⟩ := h
  exact ⟨since, fun name hm => (hfirst name hm).append (he name hm), hsorted⟩

theorem InOrder.append_bind {names : List String} (h : InOrder history names) (hm : name ∉ names)
    (hr : isReserved name = false) (hl : ∀ last, ¬ LastBound history name last) :
    InOrder (history ++ [.bind name value]) (names ++ [name]) := by
  obtain ⟨since, hfirst, hsorted⟩ := h
  have hold (n) (hn : n ∈ names) : Function.update since name history.length n = since n :=
    Function.update_of_ne (ne_of_mem_of_not_mem hn hm) _ _
  refine ⟨Function.update since name history.length, ?_, ?_⟩
  · rw [List.forall_mem_append, List.forall_mem_singleton, Function.update_self]
    refine ⟨fun n hn => ?_, firstBound_append hr hl⟩
    rw [hold n hn]
    exact (hfirst n hn).append nofun
  · rw [List.pairwise_append]
    refine ⟨hsorted.imp_of_mem fun hm hn hlt => ?_, List.pairwise_singleton _ _, ?_⟩
    · rwa [hold _ hm, hold _ hn]
    · intro n hn last hlast
      rw [hold n hn, List.mem_singleton.mp hlast, Function.update_self]
      exact (hfirst n hn).lt_length

theorem inOrder_after (history : List Edit) :
    InOrder history ((after history).entries.map (·.1)) := by
  induction history using List.reverseRecOn with
  | nil => exact ⟨fun _ => 0, nofun, .nil⟩
  | append_singleton history e ih =>
    rw [after_append]
    cases e with
    | unbind other =>
      have hnames : ((Edit.unbind other).apply (after history)).entries.map (·.1) =
          ((after history).entries.map (·.1)).filter (· ≠ other) := Table.names_filter _
      rw [hnames]
      obtain ⟨since, hfirst, hsorted⟩ := ih
      refine InOrder.append ⟨since, fun n hn => hfirst n (List.mem_of_mem_filter hn),
        hsorted.filter _⟩ fun n hn => ?_
      rintro he
      cases he
      simp at hn
    | bind other v =>
      cases hr : isReserved other with
      | true =>
        rw [apply_bind_of_reserved _ hr]
        exact ih.append nofun
      | false =>
        have hnames : ((Edit.bind other v).apply (after history)).entries.map (·.1) =
            if other ∈ (after history).entries.map (·.1) then (after history).entries.map (·.1)
            else (after history).entries.map (·.1) ++ [other] := by
          rw [apply_bind _ hr]
          exact Table.names_put _
        rw [hnames]
        split
        · exact ih.append nofun
        · rename_i hm
          refine ih.append_bind hm hr fun last hlast => ?_
          have hget : Table.find? other (after history).entries = some last :=
            get?_after.mpr hlast
          exact hm (Table.find?_isSome_iff.mp (by rw [hget]; rfl))

/-! ## What a history leaves -/

theorem FirstBound.le {i j : Nat} (hi : FirstBound history name i)
    (hj : FirstBound history name j) : j ≤ i := by
  obtain ⟨-, before, value, later, hbefore, rfl, hl, -⟩ := hi
  obtain ⟨-, before', value', later', hbefore', rfl, -, hb⟩ := hj
  rcases List.append_eq_append_iff.mp (hbefore.symm.trans hbefore') with
    ⟨between, rfl, h⟩ | ⟨between, rfl, -⟩
  · cases between with
    | nil => simp
    | cons e between =>
      obtain ⟨rfl, rfl⟩ := List.cons.inj h
      exact (hl (List.mem_append_left _ (hb before value between rfl))).elim
  · simp

theorem Leaves.unique {entries entries' : List (String × Json)} (h : Leaves history entries)
    (h' : Leaves history entries') : entries = entries' := by
  obtain ⟨since, hfirst, hsorted⟩ := h.inOrder
  obtain ⟨since', hfirst', hsorted'⟩ := h'.inOrder
  have hperm : entries.Perm entries' := by
    refine (List.perm_ext_iff_of_nodup (h.nodup.of_map _) (h'.nodup.of_map _)).mpr ?_
    rintro ⟨name, value⟩
    rw [h.mem_iff, h'.mem_iff]
  have heq (n) (hn : n ∈ entries'.map (·.1)) : since n = since' n :=
    Nat.le_antisymm ((hfirst' n hn).le (hfirst n ((hperm.map _).mem_iff.mpr hn)))
      ((hfirst n ((hperm.map _).mem_iff.mpr hn)).le (hfirst' n hn))
  rw [List.pairwise_map] at hsorted hsorted'
  refine hperm.eq_of_pairwise (fun a b _ _ hab hba => (hab.asymm hba).elim) hsorted ?_
  refine hsorted'.imp_of_mem fun ha hb hlt => ?_
  rwa [heq _ (List.mem_map_of_mem ha), heq _ (List.mem_map_of_mem hb)]

theorem leaves_after (history : List Edit) : Leaves history (after history).entries := by
  have hnodup : ((after history).entries.map (·.1)).Nodup := by
    obtain ⟨since, -, hsorted⟩ := inOrder_after history
    refine hsorted.imp ?_
    rintro m n hlt rfl
    exact hlt.false
  refine ⟨hnodup, fun name value => ?_, inOrder_after history⟩
  rw [← get?_after]
  exact ⟨Table.find?_of_mem hnodup, Table.mem_of_get?⟩

/-! ## Variables that are the same in another order -/

section Same

variable {env env' : Environment}

theorem get?_eq_some_iff (h : (env.entries.map (·.1)).Nodup) :
    env.get? name = some value ↔ (name, value) ∈ env.entries :=
  ⟨Table.mem_of_get?, Table.find?_of_mem h⟩

theorem same_of_mem_iff (h : (env.entries.map (·.1)).Nodup) (h' : (env'.entries.map (·.1)).Nodup)
    (he : ∀ e, e ∈ env.entries ↔ e ∈ env'.entries) : env.same env' = true := by
  have hperm : env.entries.Perm env'.entries :=
    (List.perm_ext_iff_of_nodup (h.of_map _) (h'.of_map _)).mpr he
  rw [same, Bool.and_eq_true, List.all_eq_true]
  refine ⟨beq_iff_eq.mpr hperm.length_eq, fun e hm => ?_⟩
  rw [(get?_eq_some_iff h').mpr ((he e).mp hm)]
  exact Json.same_self e.2

theorem expand_of_mem_iff (h : (env.entries.map (·.1)).Nodup)
    (h' : (env'.entries.map (·.1)).Nodup) (he : ∀ e, e ∈ env.entries ↔ e ∈ env'.entries)
    (text : String) : env.expand text = env'.expand text := by
  have hget (name : String) : env.get? name = env'.get? name := by
    ext value
    rw [get?_eq_some_iff h, get?_eq_some_iff h', he]
  have hlookup : env.lookup = env'.lookup := by
    funext name
    rw [lookup, lookup, hget]
  rw [expand, expand, hlookup]

end Same

/-! ## Environments that give back values -/

def replace (env : Environment) (name : String) (value : Json) :
    Except Fault (Option Json × Environment) :=
  if isReserved name then .error (.reservedName name)
  else
    let (old, entries) := Table.replace name value env.entries
    .ok (old, ⟨⟨entries⟩⟩)

def remove (env : Environment) (name : String) : Option Json × Environment :=
  let (old, entries) := Table.remove name env.entries
  (old, ⟨⟨entries⟩⟩)

theorem replace_eq (env : Environment) (name : String) (value : Json) :
    env.replace name value = (env.bind name value).map fun next => (env.get? name, next) := by
  rw [replace, Environment.bind, Table.replace_eq]
  split <;> rfl

theorem remove_eq {env : Environment} (h : (env.entries.map (·.1)).Nodup) (name : String) :
    env.remove name = (env.get? name, env.unbind name) := by
  rw [remove, Table.remove_eq h]
  rfl

/-- The variables are those that their history leaves, and no others: the names that were bound
last, each once, with the last value, in the order of the times when they were first bound since
they were unbound. What is found under a name is what is listed; to bind or unbind it gives that
back, and to bind a reserved name is refused and changes nothing. Histories that leave the same
pairs, in whatever order, leave variables that are the same and expand every text alike. -/
theorem refines_history (history : List Edit) :
    (∀ entries, entries = (after history).entries ↔ Leaves history entries) ∧
    (∀ name value, (after history).get? name = some value ↔
      (name, value) ∈ (after history).entries) ∧
    (∀ name, (after history).isBound name = true ↔
      ∃ value, (name, value) ∈ (after history).entries) ∧
    (after history).size = (after history).entries.length ∧
    (∀ name value, (after history).replace name value =
      ((after history).bind name value).map fun next => ((after history).get? name, next)) ∧
    (∀ name, (after history).remove name =
      ((after history).get? name, (after history).unbind name)) ∧
    (∀ name value, (after history).bind name value =
      if isReserved name then .error (.reservedName name)
      else .ok (after (history ++ [.bind name value]))) ∧
    (∀ name value, isReserved name = true →
      after (history ++ [.bind name value]) = after history) ∧
    ∀ other, (∀ e, e ∈ (after history).entries ↔ e ∈ (after other).entries) →
      (after history).same (after other) = true ∧
        ∀ text, (after history).expand text = (after other).expand text := by
  have hnodup (history : List Edit) : ((after history).entries.map (·.1)).Nodup :=
    (leaves_after history).nodup
  refine ⟨fun entries => ?_, fun name value => get?_eq_some_iff (hnodup history),
    fun name => ?_, rfl, replace_eq (after history), remove_eq (hnodup history),
    fun name value => ?_, fun name value hr => ?_,
    fun other he => ⟨same_of_mem_iff (hnodup history) (hnodup other) he,
      expand_of_mem_iff (hnodup history) (hnodup other) he⟩⟩
  · constructor
    · rintro rfl
      exact leaves_after history
    · exact fun h => h.unique (leaves_after history)
  · simp only [← get?_eq_some_iff (hnodup history), ← Option.isSome_iff_exists]
    rfl
  · cases hr : isReserved name with
    | true =>
      rw [Environment.bind, hr]
      rfl
    | false => rw [after_append, apply_bind _ hr, Environment.bind, hr]
  · rw [after_append, apply_bind_of_reserved _ hr]

theorem refines_history_rebound :
    let history : List Edit := [.bind "z" .null, .bind "a" (.bool true), .bind "m" .null,
      .unbind "a", .bind "z" (.bool false), .bind "U+0041" .null, .bind "a" .null]
    let other : List Edit := [.bind "a" .null, .bind "z" (.bool false), .bind "m" .null]
    (after history).entries = [("z", .bool false), ("m", .null), ("a", .null)] ∧
      (after history).isBound "a" = true ∧
      (after history).same (after other) = true ∧
      (after history).expand "\x7bz\x7d" = (after other).expand "\x7bz\x7d" := by
  intro history other
  have hentries : (after history).entries = [("z", .bool false), ("m", .null), ("a", .null)] := rfl
  have hother : (after other).entries = [("a", .null), ("z", .bool false), ("m", .null)] := rfl
  obtain ⟨-, -, hbound, -, -, -, -, -, hsame⟩ := refines_history history
  obtain ⟨hs, hexpand⟩ := hsame other fun e => by rw [hentries, hother]; grind
  exact ⟨hentries, (hbound "a").mpr ⟨.null, by rw [hentries]; simp⟩, hs, hexpand _⟩

end Environment

end ApiScript
