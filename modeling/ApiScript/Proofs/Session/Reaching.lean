import ApiScript.Proofs.Session.Course

/-! # How a script is reached

Arrays, sources and redirects lead to the scripts that a task runs, at any depth. On the way to a
script lies what is to be done after it. If the script ends well, the task goes on with that, and if
it does not, the task has ended.
-/

namespace ApiScript

open Resolution

variable {host : Host} {redirect : Redirect} {s t u v : Session} {script : Script}
  {x rest : Resolution} {result : Except Fault Unit} {f : Fault}

namespace Resolution

/-- A resolution that begins in a session comes to run a script in another one. What it has still to
do after the script is the last. -/
inductive Reaches (host : Host) : Resolution → Session → Script → Session → Resolution → Prop where
  | script (script : Script) (s : Session) :
      Reaches host (ofRun (runScript host script)) s script s (pure ())
  | named {redirect : Redirect} {text : String} {script : Script} {s : Session} :
      (∀ rest, text.toList ≠ '@' :: rest) → s.registry.script? text = some script →
      Reaches host (resolve host redirect (.string text)) s script s (pure ())
  | anonymous {redirect : Redirect} {fields : Fields Json} {script : Script} (s : Session) :
      Script.ofFields fields = .ok script → script.name = none →
      Reaches host (resolve host redirect (.object fields)) s script s (pure ())
  | kept {redirect : Redirect} {fields : Fields Json} {script : Script} {name : String}
      (s : Session) : Script.ofFields fields = .ok script → script.name = some name →
      script.isTemplate = false →
      Reaches host (resolve host redirect (.object fields)) s script (s.setScript name script)
        (pure ())
  | array {redirect : Redirect} {items : List Json} {script : Script} {s u : Session}
      {rest : Resolution} : Reaches host (resolveAll host redirect items) s script u rest →
      Reaches host (resolve host redirect (.array items)) s script u rest
  | redirect {depth : Nat} {text : String} {locator : List Char} {script : Script} {s u : Session}
      {rest : Resolution} : text.toList = '@' :: locator →
      Reaches host (resolveSource host (follow host depth) (s.env.expand (String.ofList locator)))
        s script u rest →
      Reaches host (resolve host (follow host (depth + 1)) (.string text)) s script u rest
  | source {redirect : Redirect} {locator : String} {documents : List Json} {script : Script}
      {s u : Session} {rest : Resolution} : Resolution.read host locator = .ok documents →
      Reaches host (resolveAll host redirect documents) s script u rest →
      Reaches host (resolveSource host redirect locator) s script u rest
  | first {redirect : Redirect} {document : Json} {documents : List Json} {script : Script}
      {s u : Session} {rest : Resolution} : s.isCancelled = false →
      Reaches host (resolve host redirect document) s script u rest →
      Reaches host (resolveAll host redirect (document :: documents)) s script u
        (rest >>= fun _ => resolveAll host redirect documents)
  | later {redirect : Redirect} {document : Json} {documents : List Json} {script : Script}
      {s t u : Session} {rest : Resolution} : s.isCancelled = false →
      (resolve host redirect document).Ends s (.ok ()) t →
      Reaches host (resolveAll host redirect documents) t script u rest →
      Reaches host (resolveAll host redirect (document :: documents)) s script u rest
  | firstSource {redirect : Redirect} {locator : String} {sources : List String} {script : Script}
      {s u : Session} {rest : Resolution} : s.isCancelled = false →
      Reaches host (resolveSource host redirect locator) s script u rest →
      Reaches host (resolveSources host redirect (locator :: sources)) s script u
        (rest >>= fun _ => resolveSources host redirect sources)
  | laterSource {redirect : Redirect} {locator : String} {sources : List String} {script : Script}
      {s t u : Session} {rest : Resolution} : s.isCancelled = false →
      (resolveSource host redirect locator).Ends s (.ok ()) t →
      Reaches host (resolveSources host redirect sources) t script u rest →
      Reaches host (resolveSources host redirect (locator :: sources)) s script u rest

theorem run_resolveAll_of_not_isCancelled (h : s.isCancelled = false) (document : Json)
    (documents : List Json) : (resolveAll host redirect (document :: documents)).run.run s =
      (resolve host redirect document >>= fun _ =>
        resolveAll host redirect documents).run.run s := by
  rw [run_resolveAll_cons, Session.observe_cancelled, h, if_neg Bool.false_ne_true,
    Session.observe_of_not_isCancelled h]

theorem run_resolveSources_of_not_isCancelled (h : s.isCancelled = false) (locator : String)
    (sources : List String) : (resolveSources host redirect (locator :: sources)).run.run s =
      (resolveSource host redirect locator >>= fun _ =>
        resolveSources host redirect sources).run.run s := by
  rw [run_resolveSources_cons, Session.observe_cancelled, h, if_neg Bool.false_ne_true,
    Session.observe_of_not_isCancelled h]

theorem run_bind_congr {y next : Resolution} (h : x.run.run s = y.run.run u) :
    (x >>= fun _ => next).run.run s = (y >>= fun _ => next).run.run u := by
  rw [run_bind, run_bind, h]

theorem run_bind_of_ends {next : Resolution} (h : x.Ends s (.ok ()) t) :
    (x >>= fun _ => next).run.run s = next.run.run t := by
  rw [run_bind, show x.run.run s = some (.ok (), t) from h]

/-- From where a script is reached, a resolution does nothing but run the script, and then what it
has still to do. -/
theorem Reaches.run_eq (h : Reaches host x s script u rest) :
    x.run.run s = (ofRun (runScript host script) >>= fun _ => rest).run.run u := by
  induction h with
  | script script s => rw [bind_pure_unit]
  | named ht hs => rw [bind_pure_unit, resolve, run_resolveText_of_name ht, hs]; rfl
  | anonymous s hf hn =>
    rw [bind_pure_unit, resolve, resolveScript, hf]
    dsimp only
    rw [hn]
  | kept s hf hn ht =>
    rw [bind_pure_unit, resolve, resolveScript, hf]
    dsimp only
    rw [hn, ht]
    rfl
  | array _ ih => rw [resolve, ih]
  | redirect ht _ ih =>
    rw [resolve, resolveText_of_at ht, ← ih]
    rfl
  | source hr _ ih =>
    rw [resolveSource, hr]
    exact ih
  | first hs _ ih =>
    rw [run_resolveAll_of_not_isCancelled hs, run_bind_congr ih, bind_assoc]
  | later hs ht _ ih =>
    rw [run_resolveAll_of_not_isCancelled hs, run_bind_of_ends ht, ih]
  | firstSource hs _ ih =>
    rw [run_resolveSources_of_not_isCancelled hs, run_bind_congr ih, bind_assoc]
  | laterSource hs ht _ ih =>
    rw [run_resolveSources_of_not_isCancelled hs, run_bind_of_ends ht, ih]

theorem Reaches.ends_of_error (h : Reaches host x s script u rest)
    (hf : (runScript host script).Ends u (.error f) v) : x.Ends s (.error f) v :=
  h.run_eq.trans (ends_bind.mpr (.inl ⟨f, ends_ofRun.mpr hf, rfl⟩))

theorem Reaches.ends_iff_of_ok (h : Reaches host x s script u rest)
    (hv : (runScript host script).Ends u (.ok ()) v) :
    x.Ends s result t ↔ rest.Ends v result t := by
  unfold Ends
  rw [h.run_eq, run_bind_of_ends (ends_ofRun.mpr hv)]

end Resolution

/-! ## Every script that is run is reached -/

namespace Course

variable {redirect : Bool → String → Session → Course} {target : Redirect} {pending : Bool}
  {c : Course}

def ReachedBy (host : Host) (x : Resolution) (s : Session) (c : Course) : Prop :=
  ∀ pending script u result v, .run pending script u result v ∈ c.deeds →
    ∃ rest, Reaches host x s script u rest

theorem reachedBy_idle : (idle result t).ReachedBy host x s :=
  fun _ _ _ _ _ hd => absurd hd List.not_mem_nil

theorem reachedBy_runScript (h : Reaches host x s script u rest) :
    (runScript host pending script u).ReachedBy host x s := by
  intro pending' script' u' result v hd
  cases List.mem_singleton.mp hd
  exact ⟨rest, h⟩

theorem ReachedBy.mono {y : Resolution} (h : c.ReachedBy host y t)
    (hxy : ∀ script u rest, Reaches host y t script u rest →
      ∃ rest, Reaches host x s script u rest) : c.ReachedBy host x s := by
  intro pending script u result v hd
  obtain ⟨rest, hr⟩ := h _ _ _ _ _ hd
  exact hxy script u rest hr

/-- `z` stands for `x` and `y` in turn. -/
theorem ReachedBy.inTurn {first later : Session → Course} {y z : Resolution}
    (hx : (first s).ReachedBy host x s) (ht : Tracks first x)
    (hy : ∀ t, (later t).ReachedBy host y t)
    (hf : s.isCancelled = false → ∀ script u rest, Reaches host x s script u rest →
      ∃ rest, Reaches host z s script u rest)
    (hl : s.isCancelled = false → ∀ t, x.Ends s (.ok ()) t → ∀ script u rest,
      Reaches host y t script u rest → ∃ rest, Reaches host z s script u rest) :
    (inTurn first later s).ReachedBy host z s := by
  unfold Course.inTurn
  split
  · exact reachedBy_idle
  · rename_i hs
    have hs := Bool.eq_false_iff.mpr hs
    by_cases hok : ∃ t, (first s).ending = some (.ok (), t)
    · obtain ⟨t, hend⟩ := hok
      rw [andThen_of_ok hend]
      intro pending script u result v hd
      rcases List.mem_append.mp hd with hd | hd
      · exact hx.mono (hf hs) _ _ _ _ _ hd
      · exact (hy t).mono (hl hs t ((ht s).symm.trans hend)) _ _ _ _ _ hd
    · rw [andThen_of_not_ok fun t ht => hok ⟨t, ht⟩]
      exact hx.mono (hf hs)

theorem reachedBy_resolveScript (fields : Fields Json) (s : Session) :
    (resolveScript host pending fields s).ReachedBy host
      (Resolution.resolve host target (.object fields)) s := by
  unfold resolveScript
  cases hf : Script.ofFields fields with
  | error f => exact reachedBy_idle
  | ok script =>
    dsimp only
    cases hn : script.name with
    | none => exact reachedBy_runScript (.anonymous s hf hn)
    | some name =>
      dsimp only
      split
      · exact reachedBy_idle
      · rename_i ht
        exact reachedBy_runScript (.kept s hf hn (Bool.eq_false_iff.mpr ht))

structure Redirects (host : Host) (redirect : Bool → String → Session → Course)
    (target : Redirect) : Prop where
  tracks : ∀ pending text, Tracks (redirect pending text) (target text)
  reached : ∀ pending text locator s, text.toList = '@' :: locator →
    (redirect pending (String.ofList locator) s).ReachedBy host
      (Resolution.resolve host target (.string text)) s

theorem reachedBy_resolveText (hr : Redirects host redirect target) (pending : Bool) (text : String)
    (s : Session) : (resolveText host redirect pending text s).ReachedBy host
      (Resolution.resolve host target (.string text)) s := by
  obtain ⟨locator, h⟩ | h := at_or_name text
  · rw [resolveText_of_at h]
    exact hr.reached pending text locator s h
  · rw [resolveText_of_name h]
    cases hs : s.registry.script? text with
    | some script => exact reachedBy_runScript (.named h hs)
    | none => exact reachedBy_idle

mutual

theorem reachedBy_resolve (hr : Redirects host redirect target) : ∀ pending document s,
    (resolve host redirect pending document s).ReachedBy host
      (Resolution.resolve host target document) s
  | pending, .string text, s => by
    rw [resolve]
    exact reachedBy_resolveText hr pending text s
  | pending, .array items, s => by
    rw [resolve]
    exact (reachedBy_resolveAll hr pending items s).mono fun _ _ rest h => ⟨rest, .array h⟩
  | pending, .object fields, s => by
    rw [resolve]
    exact reachedBy_resolveScript fields s
  | _, .null, _ | _, .bool _, _ | _, .number _, _ => by
    simp only [resolve]
    exact reachedBy_idle

theorem reachedBy_resolveAll (hr : Redirects host redirect target) : ∀ pending documents s,
    (resolveAll host redirect pending documents s).ReachedBy host
      (Resolution.resolveAll host target documents) s
  | _, [], _ => by
    rw [resolveAll]
    exact reachedBy_idle
  | pending, document :: documents, s => by
    rw [resolveAll]
    exact .inTurn (reachedBy_resolve hr _ document s) (tracks_resolve hr.tracks _ document)
      (reachedBy_resolveAll hr pending documents) (fun hs _ _ _ h => ⟨_, .first hs h⟩)
      fun hs _ hd _ _ rest h => ⟨rest, .later hs hd h⟩

end

theorem reachedBy_resolveSource (hr : Redirects host redirect target) (pending : Bool)
    (locator : String) (s : Session) : (resolveSource host redirect pending locator s).ReachedBy
      host (Resolution.resolveSource host target locator) s := by
  unfold resolveSource
  cases hd : Resolution.read host locator with
  | error f =>
    intro pending script u result v h
    cases List.mem_singleton.mp h
  | ok documents =>
    intro pending' script u result v h
    have hall := reachedBy_resolveAll hr pending documents s
    obtain ⟨rest, h⟩ := hall _ _ _ _ _ ((List.mem_cons.mp h).resolve_left nofun)
    exact ⟨rest, .source hd h⟩

theorem redirects_follow (host : Host) (depth : Nat) :
    Redirects host (follow host depth) (Resolution.follow host depth) := by
  induction depth with
  | zero => exact ⟨tracks_follow 0, fun _ _ _ _ _ _ _ _ _ _ hd => absurd hd List.not_mem_nil⟩
  | succ depth ih =>
    refine ⟨tracks_follow (depth + 1), fun pending text locator s ht => ?_⟩
    exact (reachedBy_resolveSource ih pending _ s).mono fun _ _ rest h => ⟨rest, .redirect ht h⟩

theorem reachedBy_resolveSources (hr : Redirects host redirect target) (sources : List String)
    (s : Session) : (resolveSources host redirect pending sources s).ReachedBy host
      (Resolution.resolveSources host target sources) s := by
  induction sources generalizing s with
  | nil => exact reachedBy_idle
  | cons locator sources ih =>
    rw [resolveSources]
    exact .inTurn (reachedBy_resolveSource hr _ locator s)
      (tracks_resolveSource hr.tracks _ locator) ih (fun hs _ _ _ h => ⟨_, .firstSource hs h⟩)
      fun hs _ hd _ _ rest h => ⟨rest, .laterSource hs hd h⟩

end Course

/-- Each script that a task runs is reached from where the task begins. -/
theorem Task.reachedBy_course (task : Task) (host : Host) (depth : Nat) (s : Session) :
    (task.course host depth s).ReachedBy host (task.body host depth) (task.opening s) := by
  have hr := Course.redirects_follow host depth
  cases task with
  | script script => exact Course.reachedBy_runScript (.script script s)
  | document document => exact Course.reachedBy_resolve hr _ document _
  | documents documents | execute documents => exact Course.reachedBy_resolveAll hr _ documents _
  | executeSource source => exact Course.reachedBy_resolveSource hr _ source _
  | executeSources sources => exact Course.reachedBy_resolveSources hr sources _

end ApiScript
