import ApiScript.Proofs.Notifier
import Mathlib.Data.List.Induction

/-! # Listeners and their history

Who is told of an event can be said from what was done alone: those that were subscribed and have
not been unsubscribed since, each once, in the order of their subscriptions. An identifier is the
number of subscriptions before its own, so none is given twice, and whoever is unsubscribed is not
told of anything again.
-/

namespace ApiScript.Notifier

/-! ## Histories -/

inductive Action where
  | subscribe
  | unsubscribe (id : Nat)
  | fire (e : Event)

namespace Action

def apply (n : Notifier) : Action → Notifier
  | .subscribe => n.subscribe.2
  | .unsubscribe id => (n.unsubscribe id).2
  | .fire e => n.fire e

def isSubscribe : Action → Bool
  | .subscribe => true
  | _ => false

end Action

def after (history : List Action) : Notifier := history.foldl Action.apply empty

def subscriptions (history : List Action) : Nat := history.countP Action.isSubscribe

variable {n : Notifier} {history : List Action} {a : Action} {id time : Nat} {ids : List Nat}
  {deliveries : List (Nat × Event)}

/-- When some things had been done, someone was subscribed and was given an identifier. -/
def GivenAt (history : List Action) (time id : Nat) : Prop :=
  ∃ before later, history = before ++ .subscribe :: later ∧ before.length = time ∧
    (after before).subscribe.1 = id

/-- When some things had been done, someone was subscribed and was given an identifier, which has
not been unsubscribed since. -/
def SubscribedAt (history : List Action) (time id : Nat) : Prop :=
  ∃ before later, history = before ++ .subscribe :: later ∧ before.length = time ∧
    (after before).subscribe.1 = id ∧ .unsubscribe id ∉ later

/-- Those that are told of an event which is fired after a history: whoever was subscribed and has
not been unsubscribed since, once, in the order of the subscriptions. -/
structure Recipients (history : List Action) (ids : List Nat) : Prop where
  nodup : ids.Nodup
  mem_iff : ∀ id, id ∈ ids ↔ ∃ time, SubscribedAt history time id
  inOrder : ids.Pairwise fun i j => ∀ s t, SubscribedAt history s i → SubscribedAt history t j →
    s < t

/-- What a history delivers, and to whom: each event to those that are told of it when it is fired,
and nothing else. -/
inductive Delivers : List Action → List (Nat × Event) → Prop where
  | nil : Delivers [] []
  | subscribe {history : List Action} {deliveries : List (Nat × Event)} :
      Delivers history deliveries → Delivers (history ++ [.subscribe]) deliveries
  | unsubscribe {history : List Action} {deliveries : List (Nat × Event)} {id : Nat} :
      Delivers history deliveries → Delivers (history ++ [.unsubscribe id]) deliveries
  | fire {history : List Action} {deliveries : List (Nat × Event)} {ids : List Nat} {e : Event} :
      Delivers history deliveries → Recipients history ids →
      Delivers (history ++ [.fire e]) (deliveries ++ ids.map fun id => (id, e))

def firedUntil (id : Nat) : List Action → List Event
  | [] => []
  | .subscribe :: rest => firedUntil id rest
  | .unsubscribe other :: rest => if other = id then [] else firedUntil id rest
  | .fire e :: rest => e :: firedUntil id rest

/-! ## One thing more -/

theorem after_append (history : List Action) (a : Action) :
    after (history ++ [a]) = a.apply (after history) := by
  rw [after, List.foldl_append]
  rfl

theorem Sound.apply (h : n.Sound) (a : Action) : (a.apply n).Sound := by
  cases a with
  | subscribe => exact h.subscribe
  | unsubscribe id => exact h.unsubscribe id
  | fire e => exact h.fire e

theorem sound_after (history : List Action) : (after history).Sound := by
  induction history using List.reverseRecOn with
  | nil => exact sound_empty
  | append_singleton history a ih => exact after_append history a ▸ ih.apply a

theorem subscribedAt_append : SubscribedAt (history ++ [a]) time id ↔
    (a = .subscribe ∧ history.length = time ∧ (after history).subscribe.1 = id) ∨
      (a ≠ .unsubscribe id ∧ SubscribedAt history time id) := by
  constructor
  · rintro ⟨before, later, h, ht, hid, hl⟩
    rcases later.eq_nil_or_concat with rfl | ⟨later, last, rfl⟩
    · obtain ⟨rfl, ha⟩ := List.append_inj' h rfl
      exact .inl ⟨by simpa using ha, ht, hid⟩
    · rw [List.concat_eq_append, ← List.cons_append, ← List.append_assoc] at h
      obtain ⟨rfl, ha⟩ := List.append_inj' h rfl
      cases ha
      rw [List.concat_eq_append, List.mem_append, not_or] at hl
      exact .inr ⟨fun ha => hl.2 (by simp [ha]), before, later, rfl, ht, hid, hl.1⟩
  · rintro (⟨rfl, ht, hid⟩ | ⟨ha, before, later, rfl, ht, hid, hl⟩)
    · exact ⟨history, [], rfl, ht, hid, nofun⟩
    · exact ⟨before, later ++ [a], by simp, ht, hid, by simp [hl, ha.symm]⟩

/-! ## Identifiers -/

theorem nextId_after (history : List Action) : (after history).nextId = subscriptions history := by
  induction history using List.reverseRecOn with
  | nil => rfl
  | append_singleton history a ih =>
    rw [after_append, subscriptions, List.countP_append, ← subscriptions, ← ih]
    cases a <;> rfl

theorem nextId_lt (before later : List Action) :
    (after before).nextId < (after (before ++ .subscribe :: later)).nextId := by
  have hs : Action.isSubscribe .subscribe = true := rfl
  rw [nextId_after, nextId_after, subscriptions, subscriptions, List.countP_append,
    List.countP_cons_of_pos hs]
  omega

theorem SubscribedAt.givenAt (h : SubscribedAt history time id) : GivenAt history time id := by
  obtain ⟨before, later, hh, ht, hid, -⟩ := h
  exact ⟨before, later, hh, ht, hid⟩

theorem GivenAt.lt_nextId (h : GivenAt history time id) : id < (after history).nextId := by
  obtain ⟨before, later, rfl, -, rfl⟩ := h
  exact nextId_lt before later

section GivenAt

variable {s t i j : Nat}

theorem GivenAt.id_eq (hi : GivenAt history time i) (hj : GivenAt history time j) : i = j := by
  obtain ⟨before, later, hbefore, rfl, rfl⟩ := hi
  obtain ⟨before', later', hbefore', ht, rfl⟩ := hj
  obtain ⟨rfl, -⟩ := List.append_inj (hbefore.symm.trans hbefore') ht.symm
  rfl

theorem GivenAt.lt (hi : GivenAt history s i) (hj : GivenAt history t j) (hlt : s < t) :
    i < j := by
  obtain ⟨before, later, hbefore, rfl, rfl⟩ := hi
  obtain ⟨before', later', hbefore', rfl, rfl⟩ := hj
  rcases List.append_eq_append_iff.mp (hbefore.symm.trans hbefore') with
    ⟨between, rfl, h⟩ | ⟨between, rfl, -⟩
  · cases between with
    | nil => simp at hlt
    | cons a between =>
      obtain ⟨rfl, -⟩ := List.cons.inj h
      exact nextId_lt before between
  · rw [List.length_append] at hlt
    omega

theorem GivenAt.lt_iff_lt (hi : GivenAt history s i) (hj : GivenAt history t j) :
    s < t ↔ i < j := by
  refine ⟨hi.lt hj, fun hlt => ?_⟩
  rcases Nat.lt_trichotomy s t with h | rfl | h
  · exact h
  · exact (Nat.ne_of_lt hlt (hi.id_eq hj)).elim
  · exact (Nat.lt_asymm hlt (hj.lt hi h)).elim

theorem GivenAt.time_eq (hs : GivenAt history s id) (ht : GivenAt history t id) : s = t := by
  have hst := hs.lt_iff_lt ht
  have hts := ht.lt_iff_lt hs
  omega

end GivenAt

/-! ## Who is told -/

theorem mem_listeners_apply : id ∈ (a.apply n).listeners ↔
    (a = .subscribe ∧ n.subscribe.1 = id) ∨ (a ≠ .unsubscribe id ∧ id ∈ n.listeners) := by
  cases a with
  | subscribe =>
    have hl : (Action.subscribe.apply n).listeners = n.listeners ++ [n.subscribe.1] := rfl
    rw [hl, List.mem_append, List.mem_singleton, or_comm, eq_comm (a := id)]
    simp
  | unsubscribe other =>
    have hl : ((Action.unsubscribe other).apply n).listeners = n.listeners.filter (· ≠ other) :=
      rfl
    rw [hl, List.mem_filter, decide_eq_true_iff, and_comm, ne_comm]
    simp
  | fire e =>
    have hl : ((Action.fire e).apply n).listeners = n.listeners := rfl
    rw [hl]
    simp

theorem mem_listeners_after :
    id ∈ (after history).listeners ↔ ∃ time, SubscribedAt history time id := by
  induction history using List.reverseRecOn with
  | nil => exact ⟨nofun, fun ⟨_, _, _, h, _⟩ => by simp at h⟩
  | append_singleton history a ih =>
    rw [after_append, mem_listeners_apply, ih]
    simp only [subscribedAt_append]
    constructor
    · rintro (⟨ha, hid⟩ | ⟨ha, time, h⟩)
      · exact ⟨history.length, .inl ⟨ha, rfl, hid⟩⟩
      · exact ⟨time, .inr ⟨ha, h⟩⟩
    · rintro ⟨time, ⟨ha, -, hid⟩ | ⟨ha, h⟩⟩
      · exact .inl ⟨ha, hid⟩
      · exact .inr ⟨ha, time, h⟩

theorem recipients_after (history : List Action) :
    Recipients history (after history).listeners where
  nodup := (sound_after history).ordered.imp Nat.ne_of_lt
  mem_iff _ := mem_listeners_after
  inOrder := (sound_after history).ordered.imp fun hlt _ _ hs ht =>
    (hs.givenAt.lt_iff_lt ht.givenAt).mpr hlt

theorem Recipients.unique {ids' : List Nat} (h : Recipients history ids)
    (h' : Recipients history ids') : ids = ids' := by
  have hperm : ids.Perm ids' := by
    refine (List.perm_ext_iff_of_nodup h.nodup h'.nodup).mpr fun id => ?_
    rw [h.mem_iff, h'.mem_iff]
  refine hperm.eq_of_pairwise (fun i j hi hj hij hji => ?_) h.inOrder h'.inOrder
  obtain ⟨s, hs⟩ := (h.mem_iff i).mp hi
  obtain ⟨t, ht⟩ := (h'.mem_iff j).mp hj
  exact (Nat.lt_asymm (hij s t hs ht) (hji t s ht hs)).elim

theorem eq_listeners_after_iff : ids = (after history).listeners ↔ Recipients history ids := by
  constructor
  · rintro rfl
    exact recipients_after history
  · exact fun h => h.unique (recipients_after history)

/-! ## What is delivered -/

theorem delivers_after (history : List Action) : Delivers history (after history).delivered := by
  induction history using List.reverseRecOn with
  | nil => exact .nil
  | append_singleton history a ih =>
    rw [after_append]
    cases a with
    | subscribe => exact .subscribe ih
    | unsubscribe id => exact .unsubscribe ih
    | fire e => exact .fire ih (recipients_after history)

theorem eq_delivered_after_iff :
    deliveries = (after history).delivered ↔ Delivers history deliveries := by
  refine ⟨fun h => h ▸ delivers_after history, fun h => ?_⟩
  induction h with
  | nil => rfl
  | subscribe _ ih => rw [ih, after_append]; rfl
  | unsubscribe _ ih => rw [ih, after_append]; rfl
  | fire _ hr ih =>
    rw [ih, eq_listeners_after_iff.mpr hr, after_append]
    rfl

theorem received_fire_of_notMem (e : Event) (hid : id ∉ n.listeners) :
    (n.fire e).received id = n.received id := by
  have hf : (n.listeners.map fun other => (other, e)).filter (·.1 == id) = [] := by
    refine List.filter_eq_nil_iff.mpr fun d hd => ?_
    obtain ⟨other, ho, rfl⟩ := List.mem_map.mp hd
    simpa using ne_of_mem_of_not_mem ho hid
  simp only [received, fire, List.filter_append, hf, List.append_nil]

/-- Whoever has been unsubscribed is not told of anything again, since the identifier is not given
again. -/
theorem received_foldl_of_notMem (actions : List Action) (hlt : id < n.nextId)
    (hid : id ∉ n.listeners) : (actions.foldl Action.apply n).received id = n.received id := by
  induction actions generalizing n with
  | nil => rfl
  | cons a rest ih =>
    rw [List.foldl_cons]
    cases a with
    | subscribe =>
      refine ih (Nat.lt_succ_of_lt hlt) fun h => ?_
      rcases List.mem_append.mp h with h | h
      · exact hid h
      · exact Nat.ne_of_lt hlt (List.mem_singleton.mp h)
    | unsubscribe other => exact ih hlt fun h => hid (List.mem_filter.mp h).1
    | fire e =>
      have hrest := ih (n := n.fire e) hlt hid
      exact hrest.trans (received_fire_of_notMem e hid)

theorem received_foldl (actions : List Action) (h : n.Sound) (hid : id ∈ n.listeners) :
    (actions.foldl Action.apply n).received id = n.received id ++ firedUntil id actions := by
  induction actions generalizing n with
  | nil => simp [firedUntil]
  | cons a rest ih =>
    rw [List.foldl_cons]
    cases a with
    | subscribe => exact ih h.subscribe (List.mem_append_left _ hid)
    | unsubscribe other =>
      rw [firedUntil]
      split
      · rename_i ho
        subst ho
        have hgone : other ∉ (n.unsubscribe other).2.listeners := fun hm => by
          simpa using (List.mem_filter.mp hm).2
        rw [List.append_nil]
        exact received_foldl_of_notMem rest (h.given other hid) hgone
      · rename_i ho
        exact ih (h.unsubscribe other) (List.mem_filter.mpr ⟨hid, by simpa using Ne.symm ho⟩)
    | fire e =>
      rw [Action.apply, ih (h.fire e) hid, received_fire h hid, firedUntil, List.append_assoc,
        List.singleton_append]

theorem received_after (before later : List Action) :
    (after (before ++ .subscribe :: later)).received (after before).subscribe.1 =
      firedUntil (after before).subscribe.1 later := by
  have h := sound_after before
  have hnew : (after before).subscribe.2.received (after before).subscribe.1 = [] :=
    h.received_nextId
  have hmem : (after before).subscribe.1 ∈ (after before).subscribe.2.listeners :=
    List.mem_append_right _ (List.mem_singleton_self _)
  have hrun : after (before ++ .subscribe :: later) =
      later.foldl Action.apply (after before).subscribe.2 := by
    rw [after, List.foldl_append]
    rfl
  rw [hrun, received_foldl later h.subscribe hmem, hnew, List.nil_append]

/-! ## Listeners that are removed -/

theorem unsubscribe_after : ((after history).unsubscribe id).1 = true ↔
    ∃ time, SubscribedAt history time id := by
  rw [← mem_listeners_after]
  exact List.contains_iff_mem

theorem listeners_unsubscribe (h : n.Sound) (id : Nat) :
    (n.unsubscribe id).2.listeners = n.listeners.erase id := by
  have hnodup : n.listeners.Nodup := h.ordered.imp Nat.ne_of_lt
  rw [hnodup.erase_eq_filter]
  refine List.filter_congr fun other _ => ?_
  rw [bne, Bool.beq_eq_decide_eq, decide_not]

/-- Whatever has been done to a notifier, those that are told of an event are the ones that were
subscribed and have not been unsubscribed since, each once, in the order of their subscriptions;
this is all that is delivered. Whoever is subscribed receives what is fired from then on until it is
unsubscribed. No identifier is given twice. To unsubscribe one succeeds if it has been given and not
been unsubscribed since, takes out that listener alone and leaves the others in order. Identifiers
are held in increasing order and are below the next one, which is the number of subscriptions: while
there are fewer than 2 ^ 64 of them, it is the same number in 64 bits. -/
theorem delivery_exact (history : List Action) :
    (∀ ids, ids = (after history).listeners ↔ Recipients history ids) ∧
    (∀ deliveries, deliveries = (after history).delivered ↔ Delivers history deliveries) ∧
    (∀ before later, history = before ++ .subscribe :: later →
      (after history).received (after before).subscribe.1 =
        firedUntil (after before).subscribe.1 later) ∧
    (∀ id s t, GivenAt history s id → GivenAt history t id → s = t) ∧
    (∀ id, ((after history).unsubscribe id).1 = true ↔ ∃ time, SubscribedAt history time id) ∧
    (∀ id, (after (history ++ [.unsubscribe id])).listeners = (after history).listeners.erase id) ∧
    (after history).listeners.Pairwise (· < ·) ∧
    (∀ id ∈ (after history).listeners, id < (after history).nextId) ∧
    (∀ time id, GivenAt history time id → id < (after history).nextId) ∧
    (after history).nextId = subscriptions history ∧
    (subscriptions history < UInt64.size →
      (after history).nextId.toUInt64.toNat = (after history).nextId) := by
  have h := sound_after history
  refine ⟨fun _ => eq_listeners_after_iff, fun _ => eq_delivered_after_iff, ?_,
    fun _ _ _ hs ht => hs.time_eq ht, fun _ => unsubscribe_after, fun id => ?_, h.ordered, h.given,
    fun _ _ hid => hid.lt_nextId, nextId_after history, fun hlt => ?_⟩
  · rintro before later rfl
    exact received_after before later
  · rw [after_append]
    exact listeners_unsubscribe h id
  · rw [nextId_after]
    exact UInt64.toNat_ofNat_of_lt hlt

theorem delivery_exact_stale :
    let first : Event := .ofCancelled true
    let second : Event := .ofCancelled false
    let history : List Action := [.subscribe, .subscribe, .unsubscribe 2, .fire first,
      .unsubscribe 0, .unsubscribe 0, .subscribe, .fire second]
    Recipients history [1, 2] ∧
      Delivers history [(0, first), (1, first), (1, second), (2, second)] ∧
      (after history).received 0 = [first] ∧
      (∀ time, GivenAt history time 2 → time = 6) ∧
      ((after history).unsubscribe 0).1 = false ∧
      (∃ time, SubscribedAt history time 2) ∧
      1 < (after history).nextId ∧ 2 < (after history).nextId ∧
      subscriptions history < UInt64.size ∧ (after history).nextId.toUInt64.toNat = 3 := by
  intro first second history
  obtain ⟨hl, hd, hr, hg, hu, -, -, hheld, hbelow, -, hw⟩ := delivery_exact history
  have hgiven : GivenAt history 6 2 :=
    ⟨[.subscribe, .subscribe, .unsubscribe 2, .fire first, .unsubscribe 0, .unsubscribe 0],
      [.fire second], rfl, rfl, rfl⟩
  have hlt : subscriptions history < UInt64.size := by decide
  exact ⟨(hl [1, 2]).mp rfl, (hd _).mp rfl, hr [] (history.drop 1) rfl,
    fun time ht => hg 2 time 6 ht hgiven, rfl, (hu 2).mp rfl, hheld 1 List.mem_cons_self,
    hbelow 6 2 hgiven, hlt, hw hlt⟩

end ApiScript.Notifier
