import ApiScript.Proofs.Session.Running

/-! # Tasks

A task is something that a session can be told to run: a script, documents, or the documents of
sources. All that a task does to a session it does in a few kinds of step, one after the other; what
holds of each step and is kept by joining them holds of the task.
-/

namespace ApiScript

inductive Task where
  | script (script : Script)
  | document (document : Json)
  | documents (documents : List Json)
  | execute (documents : List Json)
  | executeSource (source : String)
  | executeSources (sources : List String)

namespace Task

def run (host : Host) (depth : Nat) : Task → Resolution
  | .script s => .ofRun (runScript host s)
  | .document d => Session.resolve host d depth
  | .documents ds => Session.resolveAll host ds depth
  | .execute ds => Session.execute host ds depth
  | .executeSource source => Session.executeSource host source depth
  | .executeSources sources => Session.executeSources host sources depth

def isExecution : Task → Bool
  | .script _ | .document _ | .documents _ => false
  | .execute _ | .executeSource _ | .executeSources _ => true

/-- The session that a task begins in. -/
def opening (task : Task) (s : Session) : Session :=
  if task.isExecution then s.clearCancelled else s

def body (host : Host) (depth : Nat) : Task → Resolution
  | .script s => .ofRun (runScript host s)
  | .document d => Session.resolve host d depth
  | .documents ds | .execute ds => Session.resolveAll host ds depth
  | .executeSource source => Resolution.resolveSource host (Resolution.follow host depth) source
  | .executeSources sources =>
    Resolution.resolveSources host (Resolution.follow host depth) sources

theorem run_eq_body (task : Task) (host : Host) (depth : Nat) (s : Session) :
    (task.run host depth).run.run s = (task.body host depth).run.run (task.opening s) := by
  cases task <;> rfl

end Task

abbrev Law := Session → Except Fault Unit → Session → Prop

def Resolution.Obeys (x : Resolution) (law : Law) : Prop :=
  ∀ ⦃s result t⦄, x.Ends s result t → law s result t

/-- A law that each step of a task obeys when the task has begun, and two steps in turn if both
do. -/
structure Law.HoldsWithin (law : Law) (host : Host) : Prop where
  refl : ∀ s, law s (.ok ()) s
  trans : ∀ {s u t result}, law s (.ok ()) u → law u result t → law s result t
  fault : ∀ s f, f.isAssertionFailure = false → law s (.error f) s
  observe : ∀ s, law s (.ok ()) s.observe
  setScript : ∀ s name script, law s (.ok ()) (s.setScript name script)
  setTemplate : ∀ s name template, law s (.ok ()) (s.setTemplate name template)
  runScript : ∀ script, (Resolution.ofRun (runScript host script)).Obeys law

/-- A law that each step of a task obeys, its beginning included. -/
structure Law.Holds (law : Law) (host : Host) : Prop extends Law.HoldsWithin law host where
  clearCancelled : ∀ s, law s (.ok ()) s.clearCancelled

namespace Script

variable {label : String} {items : List Json} {fields : Fields Json} {f : Fault}

theorem templateNames_error (h : templateNames label items = .error f) :
    f.isAssertionFailure = false := by
  fun_induction templateNames label items with
  | case1 => cases h
  | case2 => cases h
  | case3 name rest g hg ih =>
    obtain rfl := Except.error.inj h
    exact ih hg
  | case4 =>
    cases h
    rfl

theorem nameOf_error (h : nameOf fields = .error f) : f.isAssertionFailure = false := by
  unfold nameOf at h
  split at h <;> cases h
  rfl

theorem templatesOf_error (h : templatesOf label fields = .error f) :
    f.isAssertionFailure = false := by
  unfold templatesOf at h
  split at h
  · cases h
  · cases h
  · cases h
  · exact templateNames_error h
  · cases h
    rfl

theorem ofFields_error (h : ofFields fields = .error f) : f.isAssertionFailure = false := by
  rw [ofFields] at h
  cases hn : nameOf fields with
  | error g =>
    rw [hn] at h
    cases h
    exact nameOf_error hn
  | ok name =>
    rw [hn] at h
    cases ht : templatesOf (name.getD "<anonymous>") (Fields.erase "name" fields) with
    | error g =>
      change (templatesOf _ _ >>= _) = _ at h
      rw [ht] at h
      cases h
      exact templatesOf_error ht
    | ok templates =>
      change (templatesOf _ _ >>= _) = _ at h
      rw [ht] at h
      cases h

end Script

namespace Law.HoldsWithin

open Resolution

variable {law : Law} {host : Host} {redirect : Redirect} {depth : Nat}

theorem bind {x y : Resolution} (hl : law.HoldsWithin host) (hx : x.Obeys law) (hy : y.Obeys law) :
    Obeys (x >>= fun _ => y) law := by
  intro s result t h
  rcases ends_bind.mp h with ⟨f, h₁, rfl⟩ | ⟨u, h₁, h₂⟩
  · exact hx h₁
  · exact hl.trans (hx h₁) (hy h₂)

theorem resolveScript (hl : law.HoldsWithin host) (fields : Fields Json) :
    (resolveScript host fields).Obeys law := by
  intro s result t h
  rcases ends_resolveScript.mp h with ⟨f, hf, rfl, rfl⟩ | ⟨script, _, ⟨_, h⟩ | ⟨name, _, h⟩⟩
  · exact hl.fault _ f (Script.ofFields_error hf)
  · exact hl.runScript script (ends_ofRun.mpr h)
  · split at h
    · obtain ⟨rfl, rfl⟩ := h
      exact hl.setTemplate _ name script
    · exact hl.trans (hl.setScript _ name script) (hl.runScript script (ends_ofRun.mpr h))

theorem resolveText (hl : law.HoldsWithin host) (hr : ∀ text, (redirect text).Obeys law)
    (text : String) : (resolveText host redirect text).Obeys law := by
  intro s result t h
  rcases ends_resolveText.mp h with ⟨rest, _, h⟩ | ⟨_, ⟨_, rfl, rfl⟩ | ⟨script, _, h⟩⟩
  · exact hr _ h
  · exact hl.fault _ _ rfl
  · exact hl.runScript script (ends_ofRun.mpr h)

mutual

theorem resolve (hl : law.HoldsWithin host) (hr : ∀ text, (redirect text).Obeys law) :
    ∀ document, (resolve host redirect document).Obeys law
  | .string text => by
    rw [Resolution.resolve]
    exact hl.resolveText hr text
  | .array items => by
    rw [Resolution.resolve]
    exact resolveAll hl hr items
  | .object fields => by
    rw [Resolution.resolve]
    exact hl.resolveScript fields
  | .null | .bool _ | .number _ => by
    intro s result t h
    simp only [Resolution.resolve, ends_throw] at h
    obtain ⟨rfl, rfl⟩ := h
    exact hl.fault _ _ rfl

theorem resolveAll (hl : law.HoldsWithin host) (hr : ∀ text, (redirect text).Obeys law) :
    ∀ documents, (resolveAll host redirect documents).Obeys law
  | [] => by
    intro s result t h
    obtain ⟨rfl, rfl⟩ := ends_resolveAll_nil.mp h
    exact hl.refl _
  | document :: rest => by
    intro s result t h
    rw [ends_resolveAll_cons] at h
    split at h
    · obtain ⟨rfl, rfl⟩ := h
      exact hl.observe s
    · exact hl.trans (hl.observe s) (hl.bind (resolve hl hr document) (resolveAll hl hr rest) h)

end

theorem resolveSource (hl : law.HoldsWithin host) (hr : ∀ text, (redirect text).Obeys law)
    (source : String) : (resolveSource host redirect source).Obeys law := by
  intro s result t h
  rcases ends_resolveSource.mp h with ⟨f, hf, rfl, rfl⟩ | ⟨documents, _, h⟩
  · obtain ⟨causes, -, rfl⟩ := read_eq_error_iff.mp hf
    exact hl.fault _ _ rfl
  · exact hl.resolveAll hr documents h

theorem follow (hl : law.HoldsWithin host) (depth : Nat) (text : String) :
    (follow host depth text).Obeys law := by
  induction depth generalizing text with
  | zero => exact fun _ _ _ h => (not_ends_unending h).elim
  | succ depth ih => exact fun _ _ _ h => hl.resolveSource ih _ h

theorem resolveSources (hl : law.HoldsWithin host) (hr : ∀ text, (redirect text).Obeys law)
    (sources : List String) : (resolveSources host redirect sources).Obeys law := by
  induction sources with
  | nil =>
    intro s result t h
    obtain ⟨rfl, rfl⟩ := ends_pure.mp h
    exact hl.refl _
  | cons source rest ih =>
    intro s result t h
    rw [ends_resolveSources_cons] at h
    split at h
    · obtain ⟨rfl, rfl⟩ := h
      exact hl.observe s
    · exact hl.trans (hl.observe s) (hl.bind (hl.resolveSource hr source) ih h)

theorem body (hl : law.HoldsWithin host) (depth : Nat) (task : Task) :
    (task.body host depth).Obeys law := by
  have hf := hl.follow depth
  cases task with
  | script script => exact hl.runScript script
  | document document => exact hl.resolve hf document
  | documents documents | execute documents => exact hl.resolveAll hf documents
  | executeSource source => exact hl.resolveSource hf source
  | executeSources sources => exact hl.resolveSources hf sources

end Law.HoldsWithin

namespace Law.Holds

open Resolution

variable {law : Law} {host : Host}

/-- A law that holds of sessions with the same variables, history, plug-ins and requests is kept by
every step but that of running a script. -/
theorem of_keeps (hk : ∀ {s t}, s.Keeps t → law s (.ok ()) t)
    (ht : ∀ {s u t result}, law s (.ok ()) u → law u result t → law s result t)
    (hf : ∀ s f, f.isAssertionFailure = false → law s (.error f) s)
    (hr : ∀ script, (ofRun (ApiScript.runScript host script)).Obeys law) : law.Holds host where
  refl _ := hk ⟨rfl, rfl, rfl, rfl⟩
  trans := ht
  fault := hf
  observe s := hk s.keeps_observe
  clearCancelled s := hk s.keeps_clearCancelled
  setScript _ _ _ := hk ⟨rfl, rfl, rfl, rfl⟩
  setTemplate _ _ _ := hk ⟨rfl, rfl, rfl, rfl⟩
  runScript := hr

theorem task (hl : law.Holds host) (depth : Nat) (task : Task) :
    (task.run host depth).Obeys law := by
  intro s result t h
  unfold Resolution.Ends at h
  rw [task.run_eq_body] at h
  have hb : law (task.opening s) result t := hl.body depth task h
  unfold Task.opening at hb
  split at hb
  · exact hl.trans (hl.clearCancelled s) hb
  · exact hb

end Law.Holds

/-- A law for sessions whose plug-ins carry no failed assertions but some; the plug-ins stay. -/
def Law.Under (P : Call → Prop) (law : Law) : Law := fun s result t =>
  t.plugins = s.plugins ∧ (s.plugins.Confined P → law s result t)

theorem Law.Holds.under {P : Call → Prop} {law : Law} {host : Host}
    (hk : ∀ {s t}, s.Keeps t → law s (.ok ()) t)
    (ht : ∀ {s u t result}, law s (.ok ()) u → law u result t → law s result t)
    (hf : ∀ s f, f.isAssertionFailure = false → law s (.error f) s)
    (hr : ∀ {script s result t}, s.plugins.Confined P →
      (ApiScript.runScript host script).Ends s result t → law s result t) :
    (law.Under P).Holds host := by
  refine .of_keeps (fun h => ⟨h.plugins, fun _ => hk h⟩) ?_ ?_ ?_
  · exact fun h h' => ⟨h'.1.trans h.1, fun hp => ht (h.2 hp) (h'.2 (h.1 ▸ hp))⟩
  · exact fun s f hs => ⟨rfl, fun _ => hf s f hs⟩
  · intro script s result t h
    have h := Resolution.ends_ofRun.mp h
    exact ⟨runScript_plugins h, fun hp => hr hp h⟩

end ApiScript
