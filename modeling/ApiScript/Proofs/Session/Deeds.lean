import ApiScript.Proofs.Session.Course

/-! # The scripts that a task runs

A task leads from session to session: it notes that it is to stop, keeps scripts and templates,
reads, and runs one script after the other. What is kept by all that it does holds wherever it comes
to run a script, and a script that fails ends the task, however deep it stands.
-/

namespace ApiScript

variable {law : Law} {host : Host} {s t u v : Session} {pending : Bool} {script : Script}
  {deeds more : List Deed} {result found : Except Fault Unit} {f : Fault}

/-! ## Trails -/

/-- What a task changes of a session between its deeds. -/
inductive Session.Settles : Session → Session → Prop where
  | observe (s : Session) : Settles s s.observe
  | setScript (s : Session) (name : String) (script : Script) : Settles s (s.setScript name script)
  | setTemplate (s : Session) (name : String) (template : Script) :
      Settles s (s.setTemplate name template)

/-- Some deeds lead from a session to another one, with a result. They go on from where all has
ended well. -/
inductive Trail (host : Host) (s : Session) : List Deed → Except Fault Unit → Session → Prop where
  | start : Trail host s [] (.ok ()) s
  | settle {deeds : List Deed} {t u : Session} : Trail host s deeds (.ok ()) t → t.Settles u →
      Trail host s deeds (.ok ()) u
  | fault {deeds : List Deed} {t : Session} {f : Fault} : Trail host s deeds (.ok ()) t →
      f.isAssertionFailure = false → Trail host s deeds (.error f) t
  | read {deeds : List Deed} {t : Session} (locator : String) : Trail host s deeds (.ok ()) t →
      Trail host s (deeds ++ [.read locator]) (.ok ()) t
  | run {deeds : List Deed} {t u : Session} {result : Except Fault Unit} (pending : Bool)
      {script : Script} : Trail host s deeds (.ok ()) t →
      (ApiScript.runScript host script).Ends t result u →
      Trail host s (deeds ++ [.run pending script t result u]) result u

namespace Trail

theorem trans (h : Trail host s deeds (.ok ()) t) (h' : Trail host t more result u) :
    Trail host s (deeds ++ more) result u := by
  induction h' with
  | start => rwa [List.append_nil]
  | settle _ hs ih => exact ih.settle hs
  | fault _ hf ih => exact ih.fault hf
  | read locator _ ih =>
    rw [← List.append_assoc]
    exact ih.read locator
  | run pending _ hr ih =>
    rw [← List.append_assoc]
    exact ih.run pending hr

theorem obeys (hl : law.HoldsWithin host) (h : Trail host s deeds result t) : law s result t := by
  induction h with
  | start => exact hl.refl s
  | settle _ hs ih =>
    cases hs with
    | observe => exact hl.trans ih (hl.observe _)
    | setScript name script => exact hl.trans ih (hl.setScript _ name script)
    | setTemplate name template => exact hl.trans ih (hl.setTemplate _ name template)
  | fault _ hf ih => exact hl.trans ih (hl.fault _ _ hf)
  | read _ _ ih => exact ih
  | run _ _ hr ih => exact hl.trans ih (hl.runScript _ (Resolution.ends_ofRun.mpr hr))

theorem begins (h : Trail host s deeds result t) {before after : List Deed}
    (hd : deeds = before ++ .run pending script u found v :: after) :
    Trail host s before (.ok ()) u ∧ (ApiScript.runScript host script).Ends u found v ∧
      ∀ f, found = .error f → result = .error f ∧ t = v := by
  induction h generalizing after with
  | start => simp at hd
  | settle _ _ ih | fault _ _ ih =>
    obtain ⟨hb, hr, hf⟩ := ih hd
    exact ⟨hb, hr, fun f he => nomatch (hf f he).1⟩
  | read locator _ ih =>
    rcases List.eq_nil_or_concat after with rfl | ⟨init, last, rfl⟩
    · cases (List.append_inj' hd rfl).2
    · rw [List.concat_eq_append, ← List.cons_append, ← List.append_assoc] at hd
      obtain ⟨hb, hr, hf⟩ := ih (List.append_inj' hd rfl).1
      exact ⟨hb, hr, fun f he => nomatch (hf f he).1⟩
  | run pending ht hend ih =>
    rcases List.eq_nil_or_concat after with rfl | ⟨init, last, rfl⟩
    · obtain ⟨rfl, hlast⟩ := List.append_inj' hd rfl
      cases hlast
      exact ⟨ht, hend, fun f he => ⟨he, rfl⟩⟩
    · rw [List.concat_eq_append, ← List.cons_append, ← List.append_assoc] at hd
      obtain ⟨hb, hr, hf⟩ := ih (List.append_inj' hd rfl).1
      exact ⟨hb, hr, fun f he => nomatch (hf f he).1⟩

end Trail

namespace Course

variable {redirect : Bool → String → Session → Course} {c : Course}

def HasTrail (host : Host) (s : Session) (c : Course) : Prop :=
  ∃ result t, Trail host s c.deeds result t ∧
    (c.ending = some (result, t) ∨ c.ending = none ∧ result = .ok ())

theorem hasTrail_idle (h : Trail host s [] result t) : (idle result t).HasTrail host s :=
  ⟨result, t, h, .inl rfl⟩

theorem HasTrail.after (h : Trail host s [] (.ok ()) u) (hc : c.HasTrail host u) :
    c.HasTrail host s := by
  obtain ⟨result, t, ht, he⟩ := hc
  exact ⟨result, t, h.trans ht, he⟩

theorem HasTrail.read (h : c.HasTrail host s) (locator : String) :
    HasTrail host s ⟨.read locator :: c.deeds, c.ending⟩ := by
  obtain ⟨result, t, ht, he⟩ := h
  exact ⟨result, t, (Trail.start.read locator).trans ht, he⟩

theorem hasTrail_runScript (pending : Bool) (script : Script) (s : Session) :
    (runScript host pending script s).HasTrail host s := by
  obtain ⟨result, t, h⟩ : ∃ result t, (ApiScript.runScript host script).Ends s result t :=
    ⟨_, _, rfl⟩
  rw [runScript_of_ends h]
  exact ⟨result, t, Trail.start.run pending h, .inl rfl⟩

theorem HasTrail.andThen {next : Session → Course} (h : c.HasTrail host s)
    (hn : ∀ t, (next t).HasTrail host t) : (c.andThen next).HasTrail host s := by
  obtain ⟨result, t, ht, he⟩ := h
  by_cases hok : ∃ u, c.ending = some (.ok (), u)
  · obtain ⟨u, hu⟩ := hok
    rcases he with he | ⟨he, -⟩
    · cases hu.symm.trans he
      rw [andThen_of_ok hu]
      obtain ⟨result, v, hv, he⟩ := hn t
      exact ⟨result, v, ht.trans hv, he⟩
    · cases hu.symm.trans he
  · rw [andThen_of_not_ok fun u hu => hok ⟨u, hu⟩]
    exact ⟨result, t, ht, he⟩

theorem HasTrail.inTurn {first rest : Session → Course} (hf : ∀ s, (first s).HasTrail host s)
    (hr : ∀ s, (rest s).HasTrail host s) (s : Session) : (inTurn first rest s).HasTrail host s := by
  unfold Course.inTurn
  split
  · exact hasTrail_idle (Trail.start.settle (.observe s))
  · exact (hf s).andThen hr

theorem hasTrail_resolveText (hr : ∀ pending text s, (redirect pending text s).HasTrail host s)
    (pending : Bool) (text : String) (s : Session) :
    (resolveText host redirect pending text s).HasTrail host s := by
  unfold resolveText
  split
  · exact hr ..
  · split
    · exact hasTrail_runScript ..
    · exact hasTrail_idle (Trail.start.fault rfl)

theorem hasTrail_resolveScript (fields : Fields Json) (s : Session) :
    (resolveScript host pending fields s).HasTrail host s := by
  unfold resolveScript
  cases hs : Script.ofFields fields with
  | error f => exact hasTrail_idle (Trail.start.fault (Script.ofFields_error hs))
  | ok script =>
    dsimp only
    cases script.name with
    | none => exact hasTrail_runScript ..
    | some name =>
      dsimp only
      split
      · exact hasTrail_idle (Trail.start.settle (.setTemplate ..))
      · exact (hasTrail_runScript ..).after (Trail.start.settle (.setScript ..))

mutual

theorem hasTrail_resolve (hr : ∀ pending text s, (redirect pending text s).HasTrail host s) :
    ∀ pending document s, (resolve host redirect pending document s).HasTrail host s
  | pending, .string text, s => by
    rw [resolve]
    exact hasTrail_resolveText hr pending text s
  | pending, .array items, s => by
    rw [resolve]
    exact hasTrail_resolveAll hr pending items s
  | pending, .object fields, s => by
    rw [resolve]
    exact hasTrail_resolveScript fields s
  | _, .null, s | _, .bool _, s | _, .number _, s => by
    simp only [resolve]
    exact hasTrail_idle (Trail.start.fault rfl)

theorem hasTrail_resolveAll (hr : ∀ pending text s, (redirect pending text s).HasTrail host s) :
    ∀ pending documents s, (resolveAll host redirect pending documents s).HasTrail host s
  | _, [], s => by
    rw [resolveAll]
    exact hasTrail_idle .start
  | pending, document :: rest, s => by
    rw [resolveAll]
    exact .inTurn (hasTrail_resolve hr _ document) (hasTrail_resolveAll hr pending rest) s

end

theorem hasTrail_resolveSource (hr : ∀ pending text s, (redirect pending text s).HasTrail host s)
    (pending : Bool) (locator : String) (s : Session) :
    (resolveSource host redirect pending locator s).HasTrail host s := by
  unfold resolveSource
  split
  · rename_i f hf
    obtain ⟨causes, -, rfl⟩ := Resolution.read_eq_error_iff.mp hf
    exact (hasTrail_idle (Trail.start.fault rfl)).read locator
  · exact (hasTrail_resolveAll hr pending _ s).read locator

theorem hasTrail_follow (depth : Nat) :
    ∀ pending text s, (follow host depth pending text s).HasTrail host s := by
  induction depth with
  | zero => exact fun _ _ s => ⟨.ok (), s, .start, .inr ⟨rfl, rfl⟩⟩
  | succ depth ih => exact fun pending _ s => hasTrail_resolveSource ih pending _ s

theorem hasTrail_resolveSources (hr : ∀ pending text s, (redirect pending text s).HasTrail host s)
    (sources : List String) (s : Session) :
    (resolveSources host redirect pending sources s).HasTrail host s := by
  induction sources generalizing s with
  | nil => exact hasTrail_idle .start
  | cons source rest ih =>
    rw [resolveSources]
    exact .inTurn (hasTrail_resolveSource hr _ source) ih s

end Course

theorem Task.hasTrail_course (task : Task) (host : Host) (depth : Nat) (s : Session) :
    (task.course host depth s).HasTrail host (task.opening s) := by
  have hr : ∀ pending text s, (Course.follow host depth pending text s).HasTrail host s :=
    Course.hasTrail_follow depth
  cases task with
  | script script => exact Course.hasTrail_runScript ..
  | document document => exact Course.hasTrail_resolve hr _ document _
  | documents documents | execute documents => exact Course.hasTrail_resolveAll hr _ documents _
  | executeSource source => exact Course.hasTrail_resolveSource hr _ source _
  | executeSources sources => exact Course.hasTrail_resolveSources hr sources _

/-! ## What is kept on the way -/

/-- A course that begins in a session: a law leads to each script that it runs and to its end, and a
script that fails is its end. -/
structure Course.Obeys (law : Law) (host : Host) (s : Session) (c : Course) : Prop where
  begins : ∀ pending script u result v, .run pending script u result v ∈ c.deeds →
    law s (.ok ()) u ∧ (ApiScript.runScript host script).Ends u result v
  fails : ∀ pending script u f v, .run pending script u (.error f) v ∈ c.deeds →
    c.ending = some (.error f, v)
  ends : ∀ result t, c.ending = some (result, t) → law s result t

theorem Course.HasTrail.obeys {c : Course} (hl : law.HoldsWithin host) (h : c.HasTrail host s) :
    c.Obeys law host s := by
  obtain ⟨result, t, ht, he⟩ := h
  refine ⟨fun pending script u found v hd => ?_, fun pending script u f v hd => ?_,
    fun found v hv => ?_⟩
  · obtain ⟨before, after, hsplit⟩ := List.append_of_mem hd
    obtain ⟨hb, hr, -⟩ := ht.begins hsplit
    exact ⟨hb.obeys hl, hr⟩
  · obtain ⟨before, after, hsplit⟩ := List.append_of_mem hd
    obtain ⟨-, -, hf⟩ := ht.begins hsplit
    obtain ⟨rfl, rfl⟩ := hf f rfl
    exact he.resolve_right nofun
  · rcases he with he | ⟨he, -⟩
    · cases hv.symm.trans he
      exact ht.obeys hl
    · cases hv.symm.trans he

/-- Wherever a task runs a script, what is kept by all that the task does leads there from where it
began. -/
theorem Task.obeys_course (hl : law.HoldsWithin host) (task : Task) (depth : Nat) (s : Session) :
    (task.course host depth s).Obeys law host (task.opening s) :=
  (task.hasTrail_course host depth s).obeys hl

/-- A script that fails ends the task that runs it, with the same fault and in the same session. -/
theorem Task.ends_of_failing_script {task : Task} {depth : Nat} {script : Script} {f : Fault}
    (h : .run pending script u (.error f) t ∈ (task.course host depth s).deeds) :
    task.Ends host s (.error f) t := by
  have hl : Law.HoldsWithin (fun _ _ _ => True) host :=
    ⟨fun _ => trivial, fun _ _ => trivial, fun _ _ _ => trivial, fun _ => trivial,
      fun _ _ _ => trivial, fun _ _ _ => trivial, fun _ _ _ _ _ => trivial⟩
  refine ⟨depth, ?_⟩
  unfold Resolution.Ends
  rw [← task.ending_course]
  exact (task.obeys_course hl depth s).fails _ _ _ _ _ h

end ApiScript
