import ApiScript.Proofs.Session.Course
import ApiScript.Proofs.Session.Raising

/-! # Stopping a task

When a script has run during which the session was asked to stop, whatever is pending is given up at
every level, and no more is done than to observe this once.
-/

namespace ApiScript

variable {host : Host} {script : Script} {s t u v : Session} {result : Except Fault Unit}

/-! ## What is left of a task -/

def Deed.Raises : Deed → Prop
  | .read _ => False
  | .run _ _ before _ after => before.raised = false ∧ after.raised = true

namespace Session

@[simp] theorem observe_observe (s : Session) : s.observe.observe = s.observe := by
  cases h : s.isCancelled with
  | false => rw [observe_of_not_isCancelled h, observe_of_not_isCancelled h]
  | true => exact observe_of_cancelled (by rw [observe_cancelled, h])

/-- The session that is left of a script that has run, if something is pending or not. -/
def settled (s : Session) (pending : Bool) : Session := if pending then s.observe else s

theorem settled_settled (s : Session) (a b : Bool) :
    (s.settled a).settled b = s.settled (b || a) := by
  cases a <;> cases b <;> simp [settled]

theorem cancelled_settled (hc : s.cancelled = false) (hr : s.raised = true) (pending : Bool) :
    (s.settled pending).cancelled = pending := by
  cases pending with
  | false => exact hc
  | true =>
    change s.observe.cancelled = true
    rw [observe_cancelled, isCancelled, hr, Bool.or_true]

theorem isCancelled_settled (h : s.raised = true) (pending : Bool) :
    (s.settled pending).isCancelled = true := by
  have hs : s.isCancelled = true := by rw [isCancelled, h, Bool.or_true]
  unfold settled
  split
  · exact s.keepsFlags_observe.lasting hs
  · exact hs

end Session

/-- A course that heeds what is asked of the session: either nothing is, or it is asked to stop
while the last script runs, and observes this if that ends well and something is pending in the
course itself. -/
inductive Course.Heeds (host : Host) (pending : Bool) (c : Course) : Prop where
  | calm : (∀ d ∈ c.deeds, ¬ d.Raises) →
      (∀ result t, c.ending = some (result, t) → t.isCancelled = false) → Heeds host pending c
  | raised (more : Bool) {earlier : List Deed} {script : Script} {u v : Session}
      {result : Except Fault Unit} : (∀ d ∈ earlier, ¬ d.Raises) →
      (ApiScript.runScript host script).Ends u result v → u.isCancelled = false →
      v.raised = true → c.deeds = earlier ++ [.run (pending || more) script u result v] →
      c.ending = some (result, v.settled (more && result.isOk)) → Heeds host pending c

namespace Course

variable {redirect : Bool → String → Session → Course} {pending more : Bool} {c : Course}

theorem Heeds.last {result : Except Fault Unit} {pending : Bool} (h : Heeds host false c)
    (hk : .run pending script u result v ∈ c.deeds) (hu : u.raised = false)
    (hv : v.raised = true) :
    (∃ earlier, c = ⟨earlier ++ [.run pending script u result v],
      some (result, v.settled (pending && result.isOk))⟩) ∧
    u.isCancelled = false ∧ (ApiScript.runScript host script).Ends u result v := by
  cases h with
  | calm hd => exact (hd _ hk ⟨hu, hv⟩).elim
  | raised more hd h hu' _ hdeeds he =>
    rw [hdeeds, List.mem_append, List.mem_singleton] at hk
    obtain hk | hk := hk
    · exact (hd _ hk ⟨hu, hv⟩).elim
    · cases hk
      rw [Bool.false_or] at hdeeds
      exact ⟨⟨_, congr (congrArg Course.mk hdeeds) he⟩, hu', h⟩

theorem heeds_idle (hs : s.isCancelled = false) : Heeds host pending (idle result s) :=
  .calm (List.forall_mem_nil _) fun _ _ h => by
    obtain ⟨-, rfl⟩ := Prod.mk.inj (Option.some.inj h)
    exact hs

theorem heeds_runScript (hs : s.isCancelled = false) :
    Heeds host pending (runScript host pending script s) := by
  obtain ⟨result, t, h⟩ : ∃ result t, (ApiScript.runScript host script).Ends s result t :=
    ⟨_, _, rfl⟩
  rw [runScript_of_ends h]
  cases hr : t.raised with
  | false =>
    refine .calm (by simp [Deed.Raises, hr]) fun _ _ hw => ?_
    obtain ⟨-, rfl⟩ := Prod.mk.inj (Option.some.inj hw)
    have hc : s.cancelled = false := (Bool.or_eq_false_iff.mp hs).1
    rw [Session.isCancelled, (keepsRest_runScript h).cancelled, hc, hr, Bool.or_false]
  | true =>
    have hd : [Deed.run pending script s result t] =
        [] ++ [.run (pending || false) script s result t] := by
      rw [Bool.or_false, List.nil_append]
    exact .raised false (List.forall_mem_nil _) h hs hr hd rfl

/-- Of what is pending nothing is done when the session is to stop; at most this is observed. -/
theorem Heeds.inTurn {first rest : Session → Course} (hs : s.isCancelled = false)
    (hf : Heeds host (pending || more) (first s))
    (hr : ∀ t, t.isCancelled = false → Heeds host pending (rest t))
    (hc : ∀ t, t.isCancelled = true → rest t = idle (.ok ()) (t.settled more)) :
    Heeds host pending (inTurn first rest s) := by
  rw [Course.inTurn, if_neg (by simp [hs])]
  generalize first s = c at hf ⊢
  cases hf with
  | calm hd he =>
    rcases hc : c.ending with _ | ⟨f | _, t⟩
    · rw [andThen_of_not_ok (by simp [hc])]
      exact .calm hd he
    · rw [andThen_of_not_ok (by simp [hc])]
      exact .calm hd he
    · rw [andThen_of_ok hc]
      have hn : ∀ later : List Deed, (∀ d ∈ later, ¬ d.Raises) →
          ∀ d ∈ c.deeds ++ later, ¬ d.Raises :=
        fun later hl d hm => (List.mem_append.mp hm).elim (hd d) (hl d)
      cases hr t (he _ _ hc) with
      | calm hd' he' => exact .calm (hn _ hd') he'
      | raised _ hn' h hu hv hd' he' =>
        refine .raised _ (hn _ hn') h hu hv ?_ he'
        rw [hd', List.append_assoc]
  | @raised more' earlier script u v result hn h hu hv hd he =>
    rw [Bool.or_assoc] at hd
    cases result with
    | error f =>
      rw [andThen_of_not_ok (by simp [he])]
      have hf : ∀ b, (b && (Except.error f : Except Fault Unit).isOk) = false :=
        fun b => Bool.and_false b
      rw [hf] at he
      exact .raised _ hn h hu hv hd (by rw [hf, he])
    | ok _ =>
      have ho : ∀ b, (b && (Except.ok () : Except Fault Unit).isOk) = b :=
        fun b => Bool.and_true b
      rw [ho] at he
      rw [andThen_of_ok he, hc _ (Session.isCancelled_settled hv more')]
      refine .raised (more || more') hn h hu hv ?_ ?_
      · rw [idle, List.append_nil, hd]
      · rw [idle, ho, Session.settled_settled]

theorem heeds_resolveScript (hs : s.isCancelled = false) (fields : Fields Json) :
    Heeds host pending (resolveScript host pending fields s) := by
  unfold resolveScript
  cases Script.ofFields fields with
  | error f => exact heeds_idle hs
  | ok script =>
    dsimp only
    cases script.name with
    | none => exact heeds_runScript hs
    | some name =>
      dsimp only
      split
      · exact heeds_idle hs
      · exact heeds_runScript hs

theorem heeds_resolveText (hs : s.isCancelled = false)
    (hr : ∀ pending text s, s.isCancelled = false → Heeds host pending (redirect pending text s))
    (text : String) : Heeds host pending (resolveText host redirect pending text s) := by
  unfold resolveText
  split
  · exact hr _ _ s hs
  · split
    · exact heeds_runScript hs
    · exact heeds_idle hs

theorem resolveAll_of_isCancelled (hs : s.isCancelled = true) (documents : List Json) :
    resolveAll host redirect pending documents s =
      idle (.ok ()) (s.settled !documents.isEmpty) := by
  cases documents with
  | nil => rw [resolveAll]; rfl
  | cons document rest =>
    rw [resolveAll, Course.inTurn, if_pos hs]
    rfl

theorem resolveSources_of_isCancelled (hs : s.isCancelled = true) (sources : List String) :
    resolveSources host redirect pending sources s =
      idle (.ok ()) (s.settled !sources.isEmpty) := by
  cases sources with
  | nil => rfl
  | cons source rest =>
    rw [resolveSources, Course.inTurn, if_pos hs]
    rfl

mutual

theorem heeds_resolve
    (hr : ∀ pending text s, s.isCancelled = false → Heeds host pending (redirect pending text s)) :
    ∀ pending document s, s.isCancelled = false →
      Heeds host pending (resolve host redirect pending document s)
  | pending, .string text, s, hs => by
    rw [resolve]
    exact heeds_resolveText hs hr text
  | pending, .array items, s, hs => by
    rw [resolve]
    exact heeds_resolveAll hr pending items s hs
  | pending, .object fields, s, hs => by
    rw [resolve]
    exact heeds_resolveScript hs fields
  | _, .null, s, hs | _, .bool _, s, hs | _, .number _, s, hs => by
    simp only [resolve]
    exact heeds_idle hs

theorem heeds_resolveAll
    (hr : ∀ pending text s, s.isCancelled = false → Heeds host pending (redirect pending text s)) :
    ∀ pending documents s, s.isCancelled = false →
      Heeds host pending (resolveAll host redirect pending documents s)
  | _, [], s, hs => by
    rw [resolveAll]
    exact heeds_idle hs
  | pending, document :: rest, s, hs => by
    rw [resolveAll]
    exact .inTurn hs (heeds_resolve hr _ document s hs) (heeds_resolveAll hr pending rest)
      fun t ht => resolveAll_of_isCancelled ht rest

end

theorem Heeds.read (h : Heeds host pending c) (locator : String) :
    Heeds host pending ⟨.read locator :: c.deeds, c.ending⟩ := by
  have hread : ∀ later : List Deed, (∀ d ∈ later, ¬ d.Raises) →
      ∀ d ∈ .read locator :: later, ¬ d.Raises :=
    fun later hl => List.forall_mem_cons.mpr ⟨id, hl⟩
  cases h with
  | calm hd he => exact .calm (hread _ hd) he
  | raised more hn h hu hv hd he =>
    exact .raised more (hread _ hn) h hu hv (congrArg (List.cons _) hd) he

theorem heeds_resolveSource
    (hr : ∀ pending text s, s.isCancelled = false → Heeds host pending (redirect pending text s))
    (hs : s.isCancelled = false) (locator : String) :
    Heeds host pending (resolveSource host redirect pending locator s) := by
  unfold resolveSource
  split
  · exact (heeds_idle hs).read locator
  · exact (heeds_resolveAll hr pending _ s hs).read locator

theorem heeds_follow (depth : Nat) : ∀ pending text s, s.isCancelled = false →
    Heeds host pending (follow host depth pending text s) := by
  induction depth with
  | zero =>
    intro pending text s hs
    exact .calm (by simp [follow]) (by simp [follow])
  | succ depth ih => exact fun pending _ s hs => heeds_resolveSource ih hs _

theorem heeds_resolveSources
    (hr : ∀ pending text s, s.isCancelled = false → Heeds host pending (redirect pending text s))
    (sources : List String) (hs : s.isCancelled = false) :
    Heeds host pending (resolveSources host redirect pending sources s) := by
  induction sources generalizing s with
  | nil => exact heeds_idle hs
  | cons source rest ih =>
    rw [resolveSources]
    exact .inTurn hs (heeds_resolveSource hr hs source) (fun t ht => ih ht)
      fun t ht => resolveSources_of_isCancelled ht rest

end Course

theorem Task.heeds_course (task : Task) (host : Host) (depth : Nat)
    (hs : (task.opening s).isCancelled = false) :
    (task.course host depth s).Heeds host false := by
  have hr : ∀ pending text s, s.isCancelled = false →
      (Course.follow host depth pending text s).Heeds host pending := Course.heeds_follow depth
  cases task with
  | script script => exact Course.heeds_runScript hs
  | document document => exact Course.heeds_resolve hr _ document _ hs
  | documents documents | execute documents => exact Course.heeds_resolveAll hr _ documents _ hs
  | executeSource source => exact Course.heeds_resolveSource hr hs source
  | executeSources sources => exact Course.heeds_resolveSources hr sources hs

/-! ## What listeners are told of it -/

theorem Event.Leads.filter_cancelled {events : List Event} {before after : Bool}
    (h : Event.Leads Event.tellsCancelled (fun was e now => was = !now ∧ e = .ofCancelled now)
      before events after)
    (ht : ∀ e ∈ events, e.tellsCancelled = true → e = .ofCancelled true) :
    events.filter Event.tellsCancelled = (if !before && after then [.ofCancelled true] else []) ∧
      (before = true → after = true) := by
  induction h with
  | nil before => cases before <;> simp
  | skip hk _ ih =>
    rw [List.filter_cons_of_neg (by simp [hk])]
    exact ih fun e he => ht e (List.mem_cons_of_mem _ he)
  | @step before next after e rest hk hs _ ih =>
    obtain ⟨rfl, rfl⟩ := hs
    obtain rfl : next = true := by
      have hn := congrArg Event.new (ht _ List.mem_cons_self hk)
      simpa [Event.ofCancelled] using hn
    obtain ⟨hf, ha⟩ := ih fun e he => ht e (List.mem_cons_of_mem _ he)
    rw [List.filter_cons_of_pos hk, hf, ha rfl]
    simp

theorem Task.tells_cancelled {task : Task} (ht : task.isExecution = true)
    (h : task.Ends host s result t) : ∃ events, s.Tells events t ∧
      events.filter Event.tellsCancelled =
        (if s.cancelled then [.ofCancelled false] else []) ++
          (if t.cancelled then [.ofCancelled true] else []) := by
  obtain ⟨depth, h⟩ := h.body
  rw [Task.opening, if_pos ht] at h
  have hl : Law.HoldsWithin (fun s _ t =>
      s.Told (fun e => e.tellsCancelled = true → e = .ofCancelled true) t) host :=
    Session.telling_within host (fun _ => rfl) fun e he hc => by simp [he] at hc
  obtain ⟨events, htold, ha⟩ := hl.body depth task h
  refine ⟨_, s.tells_clearCancelled.append htold, ?_⟩
  have hf := (htold.cancelled.filter_cancelled ha).1
  rw [s.clearCancelled_cancelled] at hf
  rw [List.filter_append, hf, Bool.not_false, Bool.true_and]
  cases s.cancelled <;> rfl

/-! ## A task that is stopped -/

/-- What comes of a task that begins in a session `s`, when the session is asked to stop while a
script runs that leads from `u` to `v`. -/
structure Task.StopsAfter (task : Task) (host : Host) (depth : Nat) (s : Session) (pending : Bool)
    (script : Script) (u : Session) (result : Except Fault Unit) (v t : Session) : Prop where
  asked : ∃ request, v.sent = u.sent ++ [request] ∧ (host.transport u.sent request).2 = true
  /-- The script runs as it would if the transport did not ask. -/
  undisturbed : (runScript host.calm script).Ends u result { v with raised := false }
  /-- Nothing is run or read after it, however deep redirects are followed, and whatever those
  sources hold that were not read before. -/
  last : ∃ earlier, ∀ host', host.SameFor earlier host' → ∀ deeper ≥ depth,
    task.course host' deeper s = ⟨earlier ++ [.run pending script u result v], some (result, t)⟩
  ends : task.Ends host s result t
  fault : ∀ f, result = .error f → f.isAssertionFailure = false
  /-- All that is still done is to observe that the session is to stop, if the script ended well and
  something was pending. -/
  settled : t = v.settled (pending && result.isOk)
  /-- This is told once, and nothing else is told of the flag but that it was cleared at first. -/
  told : ∃ events, (∀ id ∈ s.vars.notifier.listeners,
      t.vars.notifier.received id = s.vars.notifier.received id ++ events) ∧
    events.filter Event.tellsCancelled =
      (if s.cancelled then [.ofCancelled false] else []) ++
        (if pending && result.isOk then [.ofCancelled true] else [])
  lasting : ∀ w, t.Reaches (fun op => op.beginsAnew = false) w → w.isCancelled = true

/-- A session that is asked to stop while a script runs lets the script finish and then stops, with
nothing else done at any level. A session that has observed that it is to stop has been asked to;
and that it was asked to before makes no difference to a task that begins anew. -/
theorem Task.stops_after_raise {new s : Session} (hn : new.IsNew)
    (hs : new.Reaches (fun _ => True) s) :
    (s.cancelled = true → s.raised = true) ∧
    ∀ (host : Host) (task : Task) (depth : Nat), task.isExecution = true →
      (task.course host depth s).ending = (task.run host depth).run.run s ∧
      task.course host depth s.raise = task.course host depth s ∧
      (task.opening s).isCancelled = false ∧
      ∀ pending script u result v,
        .run pending script u result v ∈ (task.course host depth s).deeds →
        u.raised = false → v.raised = true →
        ∃ t, task.StopsAfter host depth s pending script u result v t := by
  refine ⟨Session.asked_of_reaches hn hs, fun host task depth ht => ?_⟩
  have hopen : task.opening s = s.clearCancelled := if_pos ht
  have hbegun : (task.opening s).isCancelled = false := by
    rw [hopen, Session.isCancelled_clearCancelled]
  have hraise : task.opening s.raise = task.opening s := by
    rw [hopen]
    exact if_pos ht
  refine ⟨task.ending_course host depth s, by unfold course; rw [hraise], hbegun, ?_⟩
  intro pending script u result v hk hu hv
  obtain ⟨⟨earlier, hc⟩, hcalm, hrun⟩ := (task.heeds_course host depth hbegun).last hk hu hv
  have hends : task.Ends host s result (v.settled (pending && result.isOk)) := by
    refine ⟨depth, ?_⟩
    unfold Resolution.Ends
    rw [← task.ending_course, hc]
  have hcancelled : (v.settled (pending && result.isOk)).cancelled = (pending && result.isOk) := by
    have hv' : v.cancelled = false := by
      rw [(keepsRest_runScript hrun).cancelled, (Bool.or_eq_false_iff.mp hcalm).1]
    exact Session.cancelled_settled hv' hv _
  obtain ⟨events, htold, hevents⟩ := tells_cancelled ht hends
  refine ⟨_, {
    asked := sent_of_raised hrun hu hv
    undisturbed := hu ▸ runScript_calm hrun
    last := ⟨earlier, fun host' hsame deeper hd => ?_⟩
    ends := hends
    fault := fun f hf => (not_assertionFailure host).ends hends f hf
    settled := rfl
    told := ⟨events, fun id hid => ?_, hcancelled ▸ hevents⟩
    lasting := fun w hw => Session.isCancelled_of_reaches (Session.isCancelled_settled hv _) hw }⟩
  · have hdeeper : task.course host deeper s = task.course host depth s :=
      (task.course_within hd host s).ended (by simp [hc])
    have hread : host.SameFor (task.course host deeper s).deeds host' := by
      rw [hdeeper, hc]
      exact ⟨hsame.transport, fun locator hl => hsame.read locator (by simpa using hl)⟩
    rw [task.course_same deeper hread, hdeeper, hc]
  · rw [htold.fired]
    exact Notifier.received_fireAll (Session.sound_of_reaches hn.sound hs) hid

def Host.stopping (response : Response) : Host where
  transport := fun _ _ => (.ok response, true)
  read := fun _ => .error []

theorem Task.stops_after_raise_pending :
    let task := Task.execute [.array [.object [("GET", .string "a")]],
      .object [("GET", .string "b")]]
    let host := Host.stopping ⟨200, [], ""⟩
    ∃ s script u v t,
      Session.start Environment.empty Settings.standard Plugins.standard = .ok s ∧
      .run true script u (.ok ()) v ∈ (task.course host 1 s).deeds ∧
      u.raised = false ∧ v.raised = true ∧ t.sent.length = 1 ∧ t.cancelled = true ∧
      task.StopsAfter host 1 s true script u (.ok ()) v t := by
  intro task host
  obtain ⟨s, script, u, v, hs, hd, hu, hv, hsent, hc⟩ : ∃ s script u v,
      Session.start Environment.empty Settings.standard Plugins.standard = .ok s ∧
      (task.course host 1 s).deeds = [.run true script u (.ok ()) v] ∧
      u.raised = false ∧ v.raised = true ∧ v.observe.sent.length = 1 ∧
      v.observe.cancelled = true :=
    ⟨_, _, _, _, rfl, rfl, rfl, rfl, rfl, rfl⟩
  have hk : .run true script u (.ok ()) v ∈ (task.course host 1 s).deeds := by
    rw [hd]
    exact List.mem_cons_self
  obtain ⟨-, hall⟩ := stops_after_raise (.inl ⟨_, _, _, hs⟩) .refl
  obtain ⟨t, ht⟩ := (hall host task 1 rfl).2.2.2 _ _ _ _ _ hk hu hv
  obtain rfl : t = v.observe := ht.settled
  exact ⟨s, script, u, v, _, hs, hk, hu, hv, hsent, hc, ht⟩

end ApiScript
