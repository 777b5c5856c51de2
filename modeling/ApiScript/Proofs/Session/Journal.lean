import ApiScript.Proofs.Notifier
import ApiScript.Proofs.Session.Operation

/-! # What listeners are told

The events that a listener receives are a journal of the session: they tell each change of its
variables, of the number of its calls and of whether it has observed that it is to stop, and nothing
else. Each event starts from where the one before it ended.
-/

namespace ApiScript

open Relation

/-! ## Journals -/

namespace Event

def variableName? (e : Event) : Option String :=
  match e.name.toList with
  | 'e' :: 'n' :: 'v' :: '.' :: name => some (String.ofList name)
  | _ => none

def tellsVariable (e : Event) : Bool := e.variableName?.isSome

def tellsCalls (e : Event) : Bool := e.name == "calls"

def tellsCancelled (e : Event) : Bool := e.name == "cancelled"

/-- Events of one kind lead from one state to another, each by a step; those of other kinds do not
matter. -/
inductive Leads {α : Type} (kind : Event → Bool) (step : α → Event → α → Prop) :
    α → List Event → α → Prop where
  | nil (a : α) : Leads kind step a [] a
  | skip {a b : α} {e : Event} {rest : List Event} : kind e = false →
      Leads kind step a rest b → Leads kind step a (e :: rest) b
  | step {a b c : α} {e : Event} {rest : List Event} : kind e = true → step a e b →
      Leads kind step b rest c → Leads kind step a (e :: rest) c

section Leads

variable {α : Type} {kind : Event → Bool} {step : α → Event → α → Prop} {a b c : α} {e : Event}
  {events more : List Event}

theorem Leads.append (h : Leads kind step a events b) (h' : Leads kind step b more c) :
    Leads kind step a (events ++ more) c := by
  induction h with
  | nil => exact h'
  | skip hk _ ih => exact .skip hk (ih h')
  | step hk hs _ ih => exact .step hk hs (ih h')

theorem leads_of_none (h : ∀ e ∈ events, kind e = false) : Leads kind step a events a := by
  induction events with
  | nil => exact .nil a
  | cons e rest ih =>
    exact .skip (h e List.mem_cons_self) (ih fun e he => h e (List.mem_cons_of_mem _ he))

theorem leads_single (hk : kind e = true) (hs : step a e b) : Leads kind step a [e] b :=
  .step hk hs (.nil b)

end Leads

theorem variableName?_ofVariable (name : String) (old new : Option Json) :
    (ofVariable name old new).variableName? = some name := by
  have h : ("env." ++ name).toList = 'e' :: 'n' :: 'v' :: '.' :: name.toList := by
    rw [String.toList_append]
    rfl
  simp only [variableName?, ofVariable, h, String.ofList_toList]

@[simp] theorem tellsVariable_ofVariable (name : String) (old new : Option Json) :
    (ofVariable name old new).tellsVariable = true := by
  rw [tellsVariable, variableName?_ofVariable]
  rfl

theorem tellsCalls_of_tellsVariable {e : Event} (h : e.tellsVariable = true) :
    e.tellsCalls = false := by
  rw [tellsCalls, beq_eq_false_iff_ne]
  intro hn
  rw [tellsVariable, variableName?, hn] at h
  cases h

theorem tellsCancelled_of_tellsVariable {e : Event} (h : e.tellsVariable = true) :
    e.tellsCancelled = false := by
  rw [tellsCancelled, beq_eq_false_iff_ne]
  intro hn
  rw [tellsVariable, variableName?, hn] at h
  cases h

@[simp] theorem tellsVariable_ofCalls (old new : Nat) :
    (ofCalls old new).tellsVariable = false :=
  Bool.eq_false_iff.mpr fun h => Bool.noConfusion (tellsCalls_of_tellsVariable h)

@[simp] theorem tellsVariable_ofCancelled (now : Bool) :
    (ofCancelled now).tellsVariable = false :=
  Bool.eq_false_iff.mpr fun h => Bool.noConfusion (tellsCancelled_of_tellsVariable h)

@[simp] theorem tellsCalls_ofCalls (old new : Nat) : (ofCalls old new).tellsCalls = true := rfl

@[simp] theorem tellsCalls_ofCancelled (now : Bool) : (ofCancelled now).tellsCalls = false := rfl

@[simp] theorem tellsCancelled_ofCalls (old new : Nat) :
    (ofCalls old new).tellsCancelled = false := rfl

@[simp] theorem tellsCancelled_ofCancelled (now : Bool) :
    (ofCancelled now).tellsCancelled = true := rfl

end Event

/-- One environment follows from another by the change of a variable that an event tells: a new
value is bound, and without one the variable is unbound. The event also tells the value before. -/
def Environment.Follows (env : Environment) (e : Event) (next : Environment) : Prop :=
  ∃ name, e.variableName? = some name ∧ e.old = env.get? name ∧
    match e.new with
    | some value => env.bind name value = .ok next
    | none => next = env.unbind name

/-- What some events tell of a session that has become another. -/
structure Session.Journal (s : Session) (events : List Event) (t : Session) : Prop where
  env : Event.Leads Event.tellsVariable Environment.Follows s.env events t.env
  calls : Event.Leads Event.tellsCalls (fun n e m => e = .ofCalls n m) s.size events t.size
  cancelled : Event.Leads Event.tellsCancelled (fun before e now => before = !now ∧
    e = .ofCancelled now) s.cancelled events t.cancelled
  kinds : ∀ e ∈ events, e.tellsVariable || e.tellsCalls || e.tellsCancelled

structure Session.Tells (s : Session) (events : List Event) (t : Session) : Prop extends
    Session.Journal s events t where
  fired : t.vars.notifier = s.vars.notifier.fireAll events

namespace Session

variable {s t u : Session} {events more : List Event} {allowed : Event → Prop}

def Told (allowed : Event → Prop) (s t : Session) : Prop :=
  ∃ events, s.Tells events t ∧ ∀ e ∈ events, allowed e

theorem Journal.append (h : s.Journal events u) (h' : u.Journal more t) :
    s.Journal (events ++ more) t where
  env := h.env.append h'.env
  calls := h.calls.append h'.calls
  cancelled := h.cancelled.append h'.cancelled
  kinds e he := (List.mem_append.mp he).elim (h.kinds e) (h'.kinds e)

theorem Tells.append (h : s.Tells events u) (h' : u.Tells more t) :
    s.Tells (events ++ more) t where
  toJournal := h.toJournal.append h'.toJournal
  fired := by rw [h'.fired, h.fired, Notifier.fireAll_append]

theorem journal_nil (he : t.env = s.env) (hl : t.size = s.size) (hc : t.cancelled = s.cancelled) :
    s.Journal [] t where
  env := he ▸ .nil _
  calls := hl ▸ .nil _
  cancelled := hc ▸ .nil _
  kinds _ h := nomatch h

theorem tells_nil (hv : t.vars = s.vars) (hl : t.size = s.size) (hc : t.cancelled = s.cancelled) :
    s.Tells [] t where
  toJournal := journal_nil (congrArg Variables.env hv) hl hc
  fired := congrArg Variables.notifier hv

namespace Told

theorem of_tells (h : s.Tells events t) (ha : ∀ e ∈ events, allowed e) : s.Told allowed t :=
  ⟨events, h, ha⟩

theorem unchanged (hv : t.vars = s.vars) (hl : t.size = s.size) (hc : t.cancelled = s.cancelled) :
    s.Told allowed t := ⟨[], tells_nil hv hl hc, fun _ h => nomatch h⟩

theorem refl (s : Session) : s.Told allowed s := unchanged rfl rfl rfl

theorem trans (h : s.Told allowed u) (h' : u.Told allowed t) : s.Told allowed t := by
  obtain ⟨events, h, ha⟩ := h
  obtain ⟨more, h', ha'⟩ := h'
  exact ⟨events ++ more, h.append h', fun e he => (List.mem_append.mp he).elim (ha e) (ha' e)⟩

theorem mono {allowed' : Event → Prop} (h : s.Told allowed t)
    (hm : ∀ e, allowed e → allowed' e) : s.Told allowed' t := by
  obtain ⟨events, h, ha⟩ := h
  exact ⟨events, h, fun e he => hm e (ha e he)⟩

end Told

/-! ## What each change tells -/

theorem tells_bind {name : String} {value : Json} (h : s.bind name value = .ok t) :
    s.Tells [.ofVariable name (s.env.get? name) (some value)] t := by
  unfold bind Variables.bind at h
  cases he : s.vars.env.bind name value with
  | error f =>
    rw [he] at h
    cases h
  | ok env =>
    rw [he] at h
    cases h
    have hv := Event.tellsVariable_ofVariable name (s.env.get? name) (some value)
    refine ⟨⟨?_, ?_, ?_, ?_⟩, rfl⟩
    · exact Event.leads_single hv ⟨name, Event.variableName?_ofVariable .., rfl, he⟩
    · exact Event.leads_of_none (by simp [Event.tellsCalls_of_tellsVariable hv])
    · exact Event.leads_of_none (by simp [Event.tellsCancelled_of_tellsVariable hv])
    · simp

theorem told_unbind (s : Session) (name : String) :
    s.Told (·.tellsVariable = true) (s.unbind name) := by
  unfold unbind Variables.unbind
  cases hg : s.vars.env.get? name with
  | none => exact .refl s
  | some old =>
    have hv := Event.tellsVariable_ofVariable name (some old) none
    refine ⟨[.ofVariable name (some old) none], ⟨⟨?_, ?_, ?_, ?_⟩, rfl⟩, ?_⟩
    · exact Event.leads_single hv ⟨name, Event.variableName?_ofVariable .., hg.symm, rfl⟩
    · exact Event.leads_of_none (by simp [Event.tellsCalls_of_tellsVariable hv])
    · exact Event.leads_of_none (by simp [Event.tellsCancelled_of_tellsVariable hv])
    · simp
    · simp

theorem Rebinds.told (h : s.Rebinds t) : s.Told (·.tellsVariable = true) t := by
  obtain ⟨v, hv, rfl⟩ := h
  induction hv with
  | refl => exact .refl s
  | @tail v w _ h ih =>
    obtain ⟨name, value, h⟩ := h
    have hb : bind { s with vars := v } name value = .ok { s with vars := w } := by
      rw [bind, h]
    exact ih.trans (.of_tells (tells_bind hb) (by simp))

theorem tells_addCall (s : Session) (call : Call) :
    s.Tells [.ofCalls s.size (s.addCall call).size] (s.addCall call) where
  env := Event.leads_of_none (by simp)
  calls := Event.leads_single rfl rfl
  cancelled := Event.leads_of_none (by simp)
  kinds := by simp
  fired := rfl

theorem tells_observe (s : Session) :
    s.Tells (if !s.cancelled && s.raised then [.ofCancelled true] else []) s.observe := by
  unfold observe
  split
  · rename_i h
    rw [Bool.and_eq_true, Bool.not_eq_true'] at h
    refine ⟨⟨Event.leads_of_none (by simp), Event.leads_of_none (by simp), ?_, by simp⟩, rfl⟩
    exact Event.leads_single rfl ⟨h.1, rfl⟩
  · exact tells_nil rfl rfl rfl

theorem tells_clearCancelled (s : Session) :
    s.Tells (if s.cancelled then [.ofCancelled false] else []) s.clearCancelled := by
  unfold clearCancelled
  dsimp only
  split
  · rename_i h
    refine ⟨⟨Event.leads_of_none (by simp), Event.leads_of_none (by simp), ?_, by simp⟩, rfl⟩
    exact Event.leads_single rfl ⟨h, rfl⟩
  · exact tells_nil rfl rfl rfl

theorem told_observe (s : Session) : s.Told (fun e => e = .ofCancelled true) s.observe :=
  .of_tells s.tells_observe (by split <;> simp)

theorem told_clearCancelled (s : Session) :
    s.Told (fun e => e = .ofCancelled false) s.clearCancelled :=
  .of_tells s.tells_clearCancelled (by split <;> simp)

theorem told_publishCount {ledger : Ledger} (h : ledger.size = s.size) :
    s.Told (·.tellsVariable = true) { s with ledger }.publishCount :=
  (Told.unchanged rfl h rfl : s.Told _ { s with ledger }).trans (rebinds_publishCount _).told

theorem told_increment (s : Session) : s.Told (·.tellsVariable = true) s.increment :=
  told_publishCount rfl

theorem told_resetCount (s : Session) : s.Told (·.tellsVariable = true) s.resetCount :=
  told_publishCount rfl

/-- The history is emptied before anything is told, and that it is empty is told last. -/
theorem told_reset (s : Session) : s.Told (fun _ => True) s.reset := by
  have hp : Told (·.tellsCalls = false) { s with ledger := Ledger.empty }
      { s with ledger := Ledger.empty }.publishCount :=
    (rebinds_publishCount _).told.mono fun _ => Event.tellsCalls_of_tellsVariable
  obtain ⟨events, h, he⟩ := hp.trans ((told_clearCancelled _).mono (by rintro _ rfl; rfl))
  have hs : s.reset.size = 0 := by
    obtain ⟨v, hv⟩ := s.reset_eq
    rw [hv]
    rfl
  refine ⟨events ++ [.ofCalls s.size 0], ⟨⟨?_, ?_, ?_, ?_⟩, ?_⟩, fun _ _ => trivial⟩
  · exact h.env.append (Event.leads_of_none (by simp))
  · rw [hs]
    exact (Event.leads_of_none he).append (Event.leads_single rfl rfl)
  · exact h.cancelled.append (Event.leads_of_none (by simp))
  · intro e hm
    rcases List.mem_append.mp hm with hm | hm
    · exact h.kinds e hm
    · rw [List.mem_singleton.mp hm]
      simp
  · rw [Notifier.fireAll_append, ← h.fired]
    rfl

/-! ## What tasks and operations tell -/

theorem told_sending (s : Session) (host : Host) (request : Request) :
    s.Told allowed (s.sending host request) := by
  rw [sending_eq]
  exact .unchanged rfl rfl rfl

theorem told_absorb (s : Session) (call : Call) :
    s.Told (·.tellsCancelled = false) (s.absorb call) := by
  have hr : ∀ n, s.Told (·.tellsCancelled = false) (Nat.repeat increment n s) := by
    intro n
    induction n with
    | zero => exact .refl s
    | succ n ih =>
      exact ih.trans ((told_increment _).mono fun _ => Event.tellsCancelled_of_tellsVariable)
  exact (hr _).trans (.of_tells (tells_addCall _ call) (by simp))

variable {host : Host} {script : Script} {result : Except Fault Unit}

theorem told_run {P : Call → Prop} {found : Except Fault (Option Call)}
    (h : Execution.Exit host P s found t) : s.Told (·.tellsVariable = true) t := by
  cases h with
  | unsent hu => exact hu.told
  | unanswered hu => exact hu.told.trans (told_sending ..)
  | answered hu _ ht => exact hu.told.trans ((told_sending ..).trans ht.told)

theorem told_runScript (h : (runScript host script).Ends s result t) :
    s.Told (·.tellsCancelled = false) t := by
  obtain ⟨found, u, hr, hu⟩ := ends_runScript.mp h
  have hs : s.Told (·.tellsCancelled = false) u :=
    (told_run (Execution.exit_of_run s.plugins.confined_true hr)).mono fun _ =>
      Event.tellsCancelled_of_tellsVariable
  refine hs.trans ?_
  cases hu with
  | nothing => exact .refl _
  | passed => exact .of_tells (tells_addCall ..) (by simp)
  | failed => exact told_absorb ..
  | carried => exact told_absorb ..
  | fault => exact .refl _

theorem telling_within (host : Host) (ha : allowed (.ofCancelled true))
    (hv : ∀ e, e.tellsCancelled = false → allowed e) :
    Law.HoldsWithin (fun s _ t => s.Told allowed t) host where
  refl := .refl
  trans h h' := h.trans h'
  fault s _ _ := .refl s
  observe s := s.told_observe.mono (by rintro _ rfl; exact ha)
  setScript _ _ _ := .unchanged rfl rfl rfl
  setTemplate _ _ _ := .unchanged rfl rfl rfl
  runScript _ _ _ _ h := (told_runScript (Resolution.ends_ofRun.mp h)).mono hv

theorem telling (host : Host) : Law.Holds (fun s _ t => s.Told (fun _ => True) t) host where
  toHoldsWithin := telling_within host trivial fun _ _ => trivial
  clearCancelled s := s.told_clearCancelled.mono fun _ _ => trivial

def listen (s : Session) : Session :=
  { s with vars := { s.vars with notifier := s.vars.notifier.subscribe.2 } }

theorem told_operation {op : Operation} (h : op.Ends host s result t) :
    s.Told (fun _ => True) t ∨ op = .listen ∧ t = s.listen ∨
      ∃ id, op = .unlisten id ∧
        t = { s with vars := { s.vars with notifier := (s.vars.notifier.unsubscribe id).2 } } := by
  cases h with
  | task h => exact .inl ((telling host).ends h)
  | bind h => exact .inl (.of_tells (tells_bind h) fun _ _ => trivial)
  | reserved => exact .inl (.refl s)
  | unbind => exact .inl ((told_unbind s _).mono fun _ _ => trivial)
  | setScript | setTemplate | setLanguage | raise => exact .inl (.unchanged rfl rfl rfl)
  | addCall => exact .inl (.of_tells (tells_addCall s _) fun _ _ => trivial)
  | increment => exact .inl (s.told_increment.mono fun _ _ => trivial)
  | resetCount => exact .inl (s.told_resetCount.mono fun _ _ => trivial)
  | cancel =>
    have hr : s.Told (fun _ => True) s.raise := .unchanged rfl rfl rfl
    exact .inl (hr.trans (s.raise.told_observe.mono fun _ _ => trivial))
  | reset => exact .inl s.told_reset
  | listen => exact .inr (.inl ⟨rfl, rfl⟩)
  | @unlisten id => exact .inr (.inr ⟨id, rfl, rfl⟩)

/-! ## What a listener receives -/

theorem sound_operation {op : Operation} (hs : s.vars.notifier.Sound)
    (h : op.Ends host s result t) : t.vars.notifier.Sound := by
  rcases told_operation h with ⟨events, ht, -⟩ | ⟨-, rfl⟩ | ⟨id, -, rfl⟩
  · rw [ht.fired]
    exact hs.fireAll events
  · exact hs.subscribe
  · exact hs.unsubscribe id

theorem received_operation {op : Operation} {id : Nat} (hs : s.vars.notifier.Sound)
    (hid : id ∈ s.vars.notifier.listeners) (h : op.Ends host s result t)
    (ho : op ≠ .unlisten id) :
    id ∈ t.vars.notifier.listeners ∧ ∃ events,
      t.vars.notifier.received id = s.vars.notifier.received id ++ events ∧ s.Journal events t := by
  rcases told_operation h with ⟨events, ht, -⟩ | ⟨-, rfl⟩ | ⟨other, rfl, rfl⟩
  · rw [ht.fired]
    exact ⟨by simpa using hid, events, Notifier.received_fireAll hs hid, ht.toJournal⟩
  · exact ⟨List.mem_append_left _ hid, [], (List.append_nil _).symm, journal_nil rfl rfl rfl⟩
  · have hn : id ≠ other := fun he => ho (he ▸ rfl)
    refine ⟨List.mem_filter.mpr ⟨hid, by simpa using hn⟩, [], (List.append_nil _).symm, ?_⟩
    exact journal_nil rfl rfl rfl

abbrev Reaches (allowed : Operation → Prop) : Session → Session → Prop :=
  ReflTransGen (Step (fun _ => True) allowed)

theorem Reaches.after {op : Operation} {kind : Operation → Prop} (h : s.Reaches kind u)
    (hu : op.Ends host u result t) (ho : kind op) : s.Reaches kind t :=
  h.tail ⟨host, op, result, host.confined_true, ho, hu⟩

theorem IsNew.sound (h : s.IsNew) : s.vars.notifier.Sound := by
  obtain ⟨u, hu, hn, -⟩ := h.rebinds
  obtain ⟨events, ht, -⟩ := hu.told
  rw [ht.fired, hn]
  exact Notifier.sound_empty.fireAll events

theorem sound_of_reaches {allowed : Operation → Prop} (hs : s.vars.notifier.Sound)
    (h : s.Reaches allowed t) : t.vars.notifier.Sound := by
  induction h with
  | refl => exact hs
  | tail _ h ih =>
    obtain ⟨host, op, result, -, -, h⟩ := h
    exact sound_operation ih h

/-- What a listener receives from its subscription on, until it is removed, is a journal of all that
happens to the session: it leads the variables, the number of calls and the flag from what they were
to what they are, and each event tells the value that was there before it. -/
theorem journal_received {new : Session} (hn : new.IsNew) (hs : new.Reaches (fun _ => True) s)
    (h : s.listen.Reaches (· ≠ .unlisten s.vars.notifier.nextId) t) :
    s.Journal (t.vars.notifier.received s.vars.notifier.nextId) t := by
  have hsound : s.vars.notifier.Sound := sound_of_reaches hn.sound hs
  suffices hj : t.vars.notifier.Sound ∧ s.vars.notifier.nextId ∈ t.vars.notifier.listeners ∧
      s.Journal (t.vars.notifier.received s.vars.notifier.nextId) t from hj.2.2
  induction h with
  | refl =>
    refine ⟨hsound.subscribe, List.mem_append_right _ List.mem_cons_self, ?_⟩
    have hr : s.listen.vars.notifier.received s.vars.notifier.nextId = [] :=
      hsound.received_nextId
    rw [hr]
    exact journal_nil rfl rfl rfl
  | tail _ h ih =>
    obtain ⟨host, op, result, -, ho, h⟩ := h
    obtain ⟨hsound, hid, hj⟩ := ih
    obtain ⟨hid', events, he, ht⟩ := received_operation hsound hid h ho
    refine ⟨sound_operation hsound h, hid', ?_⟩
    rw [he]
    exact hj.append ht

theorem journal_received_mixed :
    ∃ s t, start Environment.empty Settings.standard Plugins.standard = .ok s ∧
      s.listen.Reaches (· ≠ .unlisten 0) t ∧
      (t.vars.notifier.received 0).map (·.name) =
        ["env.a", "env.failedAssertionCount", "calls", "cancelled"] ∧
      s.Journal (t.vars.notifier.received 0) t := by
  let host := Host.always ⟨200, [], ""⟩
  obtain ⟨s, t, u, v, hs, hn, ht, hu, hv, hr⟩ : ∃ s t u v : Session,
      start Environment.empty Settings.standard Plugins.standard = .ok s ∧
      s.vars.notifier.nextId = 0 ∧
      (Operation.bind "a" .null).Ends host s.listen (.ok ()) t ∧
      (Task.documents [.object [("assert", .object [("bound", .string "b")])]]).Ends host t
        (.ok ()) u ∧
      Operation.cancel.Ends host u (.ok ()) v ∧
      (v.vars.notifier.received 0).map (·.name) =
        ["env.a", "env.failedAssertionCount", "calls", "cancelled"] :=
    ⟨_, _, _, _, rfl, rfl, .bind rfl, ⟨1, rfl⟩, .cancel, by decide⟩
  have h : s.listen.Reaches (· ≠ .unlisten s.vars.notifier.nextId) v :=
    ((Reaches.after .refl ht nofun).after (.task hu) nofun).after hv nofun
  have hj := journal_received (.inl ⟨_, _, _, hs⟩) .refl h
  rw [hn] at hj h
  exact ⟨s, v, hs, h, hr, hj⟩

end Session

end ApiScript
