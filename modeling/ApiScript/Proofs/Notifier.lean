import ApiScript.Notifier
import Mathlib.Data.List.Nodup

/-! # What a listener receives

Identifiers are given in increasing order and never again. A listener receives each event that is
told while it is subscribed once, and nothing else.
-/

namespace ApiScript.Notifier

variable {n : Notifier} {e : Event} {events : List Event} {id : Nat}

def received (n : Notifier) (id : Nat) : List Event :=
  (n.delivered.filter (·.1 == id)).map (·.2)

def fireAll (n : Notifier) (events : List Event) : Notifier := events.foldl fire n

/-- The identifiers of listeners are in order, and the next one is above all that were given. -/
structure Sound (n : Notifier) : Prop where
  ordered : n.listeners.Pairwise (· < ·)
  given : ∀ id ∈ n.listeners, id < n.nextId
  delivered : ∀ d ∈ n.delivered, d.1 < n.nextId

@[simp] theorem fireAll_nil : n.fireAll [] = n := rfl

@[simp] theorem fireAll_cons : n.fireAll (e :: events) = (n.fire e).fireAll events := rfl

theorem fireAll_append (more : List Event) :
    n.fireAll (events ++ more) = (n.fireAll events).fireAll more := List.foldl_append

@[simp] theorem fireAll_listeners : (n.fireAll events).listeners = n.listeners := by
  induction events generalizing n with
  | nil => rfl
  | cons e rest ih => exact ih

@[simp] theorem fireAll_nextId : (n.fireAll events).nextId = n.nextId := by
  induction events generalizing n with
  | nil => rfl
  | cons e rest ih => exact ih

/-! ## Identifiers -/

theorem sound_empty : empty.Sound where
  ordered := .nil
  given _ h := nomatch h
  delivered _ h := nomatch h

theorem Sound.fire (h : n.Sound) (e : Event) : (n.fire e).Sound where
  ordered := h.ordered
  given := h.given
  delivered d hd := by
    rcases List.mem_append.mp hd with hd | hd
    · exact h.delivered d hd
    · obtain ⟨id, hid, rfl⟩ := List.mem_map.mp hd
      exact h.given id hid

theorem Sound.fireAll (h : n.Sound) (events : List Event) : (n.fireAll events).Sound := by
  induction events generalizing n with
  | nil => exact h
  | cons e rest ih => exact ih (h.fire e)

theorem Sound.subscribe (h : n.Sound) : n.subscribe.2.Sound where
  ordered := List.pairwise_append.mpr
    ⟨h.ordered, List.pairwise_singleton _ _, fun id hid _ hn =>
      List.mem_singleton.mp hn ▸ h.given id hid⟩
  given id hid := by
    rcases List.mem_append.mp hid with hid | hid
    · exact Nat.lt_succ_of_lt (h.given id hid)
    · exact List.mem_singleton.mp hid ▸ Nat.lt_succ_self _
  delivered d hd := Nat.lt_succ_of_lt (h.delivered d hd)

theorem Sound.unsubscribe (h : n.Sound) (id : Nat) : (n.unsubscribe id).2.Sound where
  ordered := h.ordered.filter _
  given other ho := h.given other (List.mem_filter.mp ho).1
  delivered := h.delivered

/-! ## Delivery -/

theorem Sound.received_nextId (h : n.Sound) : n.received n.nextId = [] := by
  have hn : n.delivered.filter (·.1 == n.nextId) = [] := by
    refine List.filter_eq_nil_iff.mpr fun d hd => ?_
    simpa using Nat.ne_of_lt (h.delivered d hd)
  rw [received, hn, List.map_nil]

theorem received_fire (h : n.Sound) (hid : id ∈ n.listeners) :
    (n.fire e).received id = n.received id ++ [e] := by
  have hc : n.listeners.count id = 1 :=
    List.count_eq_one_of_mem (h.ordered.imp Nat.ne_of_lt) hid
  have hf : (n.listeners.map fun other => (other, e)).filter (·.1 == id) = [(id, e)] := by
    rw [List.filter_map, show ((fun d : Nat × Event => d.1 == id) ∘ fun other => (other, e)) =
      (· == id) from rfl, List.filter_beq, hc]
    rfl
  simp only [received, fire, List.filter_append, List.map_append, hf]
  rfl

theorem received_fireAll (h : n.Sound) (hid : id ∈ n.listeners) :
    (n.fireAll events).received id = n.received id ++ events := by
  induction events generalizing n with
  | nil => simp
  | cons e rest ih =>
    rw [fireAll_cons, ih (h.fire e) hid, received_fire h hid, List.append_assoc,
      List.singleton_append]

end ApiScript.Notifier
