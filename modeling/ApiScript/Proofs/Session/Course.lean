import ApiScript.Proofs.Session.Depth

/-! # The course of a task

On its way a task reads sources and runs scripts. Its course tells these deeds in order, and how the
task ends. A task that does not end at the depth to which redirects are followed has deeds as well;
deeper redirects add to them and change nothing else. What a task does not read does not matter.
-/

namespace ApiScript

/-- What a task does on its way. -/
inductive Deed where
  | read (locator : String)
  /-- A script is run. A document or a source is pending if it comes later in a list that is being
  resolved then, at whatever level. -/
  | run (pending : Bool) (script : Script) (before : Session) (result : Except Fault Unit)
      (after : Session)

structure Course where
  deeds : List Deed
  ending : Option (Except Fault Unit × Session)

namespace Course

variable (host : Host) (redirect : Bool → String → Session → Course) (pending : Bool)

def idle (result : Except Fault Unit) (s : Session) : Course := ⟨[], some (result, s)⟩

def runScript (script : Script) (s : Session) : Course :=
  let (result, t) := (ApiScript.runScript host script).run.run s
  ⟨[.run pending script s result t], some (result, t)⟩

def andThen (c : Course) (next : Session → Course) : Course :=
  match c.ending with
  | some (.ok (), t) => ⟨c.deeds ++ (next t).deeds, (next t).ending⟩
  | _ => c

/-- The course of a first item and of the rest, unless the session is to stop. -/
def inTurn (first rest : Session → Course) (s : Session) : Course :=
  if s.isCancelled then idle (.ok ()) s.observe else (first s).andThen rest

def resolveText (text : String) (s : Session) : Course :=
  match text.toList with
  | '@' :: rest => redirect pending (String.ofList rest) s
  | _ =>
    match s.registry.script? text with
    | some script => runScript host pending script s
    | none => idle (.error (.noSuchScript text)) s

def resolveScript (fields : Fields Json) (s : Session) : Course :=
  match Script.ofFields fields with
  | .error f => idle (.error f) s
  | .ok script =>
    match script.name with
    | none => runScript host pending script s
    | some name =>
      if script.isTemplate then idle (.ok ()) (s.setTemplate name script)
      else runScript host pending script (s.setScript name script)

mutual

def resolve (pending : Bool) : Json → Session → Course
  | .string text => resolveText host redirect pending text
  | .array items => resolveAll pending items
  | .object fields => resolveScript host pending fields
  | other =>
    idle (.error (.invalidScript other.render
      "a document must be a script object, a script name or a list"))

def resolveAll (pending : Bool) : List Json → Session → Course
  | [] => idle (.ok ())
  | document :: rest =>
    inTurn (resolve (pending || !rest.isEmpty) document) (resolveAll pending rest)

end

def resolveSource (locator : String) (s : Session) : Course :=
  match Resolution.read host locator with
  | .error f => ⟨[.read locator], some (.error f, s)⟩
  | .ok documents =>
    let c := resolveAll host redirect pending documents s
    ⟨.read locator :: c.deeds, c.ending⟩

def follow : Nat → Bool → String → Session → Course
  | 0, _, _, _ => ⟨[], none⟩
  | depth + 1, pending, text, s =>
    resolveSource host (follow depth) pending (s.env.expand text) s

def resolveSources : List String → Session → Course
  | [] => idle (.ok ())
  | source :: rest =>
    inTurn (resolveSource host redirect (pending || !rest.isEmpty) source)
      (resolveSources rest)

end Course

def Task.course (task : Task) (host : Host) (depth : Nat) (before : Session) : Course :=
  let redirect := Course.follow host depth
  let begun := task.opening before
  match task with
  | .script s => Course.runScript host false s begun
  | .document d => Course.resolve host redirect false d begun
  | .documents ds | .execute ds => Course.resolveAll host redirect false ds begun
  | .executeSource source => Course.resolveSource host redirect false source begun
  | .executeSources sources => Course.resolveSources host redirect false sources begun

/-- Another host answers as a host does, and reads the same wherever some deeds read. -/
structure Host.SameFor (host : Host) (deeds : List Deed) (host' : Host) : Prop where
  transport : host'.transport = host.transport
  read : ∀ locator, .read locator ∈ deeds → host'.read locator = host.read locator

theorem Host.SameFor.mono {host host' : Host} {deeds fewer : List Deed}
    (h : host.SameFor deeds host') (hf : fewer ⊆ deeds) : host.SameFor fewer host' :=
  ⟨h.transport, fun locator hl => h.read locator (hf hl)⟩

namespace Course

variable {host host' : Host} {redirect redirect' : Bool → String → Session → Course}
  {pending : Bool} {s : Session}

theorem andThen_of_ok {c : Course} {next : Session → Course} (h : c.ending = some (.ok (), s)) :
    c.andThen next = ⟨c.deeds ++ (next s).deeds, (next s).ending⟩ := by
  rw [andThen, h]

theorem andThen_of_not_ok {c : Course} {next : Session → Course}
    (h : ∀ s, c.ending ≠ some (.ok (), s)) : c.andThen next = c := by
  unfold andThen
  split
  · rename_i t ht
    exact (h t ht).elim
  · rfl

theorem at_or_name (text : String) :
    (∃ rest, text.toList = '@' :: rest) ∨ ∀ rest, text.toList ≠ '@' :: rest :=
  (Classical.em _).imp_right not_exists.mp

theorem resolveText_of_at {text : String} {rest : List Char} (h : text.toList = '@' :: rest) :
    resolveText host redirect pending text s = redirect pending (String.ofList rest) s := by
  simp only [resolveText, h]

theorem resolveText_of_name {text : String} (h : ∀ rest, text.toList ≠ '@' :: rest) :
    resolveText host redirect pending text s =
      match s.registry.script? text with
      | some script => runScript host pending script s
      | none => idle (.error (.noSuchScript text)) s := by
  unfold resolveText
  split
  · exact (h _ ‹_›).elim
  · rfl

theorem runScript_of_ends {script : Script} {result : Except Fault Unit} {t : Session}
    (h : (ApiScript.runScript host script).Ends s result t) :
    runScript host pending script s = ⟨[.run pending script s result t], some (result, t)⟩ := by
  rw [runScript, show (ApiScript.runScript host script).run.run s = (result, t) from h]

/-! ## The end of a course -/

section Ending

variable {c first rest : Session → Course} {x y : Resolution} {target : Resolution.Redirect}

def Tracks (c : Session → Course) (x : Resolution) : Prop := ∀ s, (c s).ending = x.run.run s

theorem tracks_done : Tracks (idle (.ok ())) (pure ()) := fun _ => rfl

theorem tracks_fault (f : Fault) : Tracks (idle (.error f)) (throw f) := fun _ => rfl

theorem Tracks.inTurn (hx : Tracks first x) (hy : Tracks rest y) (s : Session) :
    (inTurn first rest s).ending =
      if s.observe.cancelled then some (.ok (), s.observe)
      else (x >>= fun _ => y).run.run s.observe := by
  unfold Course.inTurn
  rw [Session.observe_cancelled]
  split
  · rfl
  · rename_i h
    rw [Session.observe_of_not_isCancelled (Bool.eq_false_iff.mpr h), Resolution.run_bind, ← hx s]
    rcases hc : (first s).ending with _ | ⟨f | _, t⟩
    · rw [andThen_of_not_ok (by simp [hc]), hc]
    · rw [andThen_of_not_ok (by simp [hc]), hc]
    · rw [andThen_of_ok hc]
      exact hy t

theorem tracks_resolveText (hr : ∀ pending text, Tracks (redirect pending text) (target text))
    (pending : Bool) (text : String) : Tracks (resolveText host redirect pending text)
      (Resolution.resolveText host target text) := by
  intro s
  obtain ⟨rest, h⟩ | h := at_or_name text
  · rw [resolveText_of_at h, Resolution.resolveText_of_at h]
    exact hr pending _ s
  · rw [resolveText_of_name h, Resolution.run_resolveText_of_name h]
    cases s.registry.script? text <;> rfl

theorem tracks_resolveScript (pending : Bool) (fields : Fields Json) :
    Tracks (resolveScript host pending fields) (Resolution.resolveScript host fields) := by
  intro s
  unfold resolveScript Resolution.resolveScript
  cases Script.ofFields fields with
  | error f => rfl
  | ok script =>
    dsimp only
    cases script.name with
    | none => rfl
    | some name =>
      dsimp only
      split <;> rfl

mutual

theorem tracks_resolve (hr : ∀ pending text, Tracks (redirect pending text) (target text)) :
    ∀ pending document, Tracks (resolve host redirect pending document)
      (Resolution.resolve host target document)
  | pending, .string text => by
    rw [resolve, Resolution.resolve]
    exact tracks_resolveText hr pending text
  | pending, .array items => by
    rw [resolve, Resolution.resolve]
    exact tracks_resolveAll hr pending items
  | pending, .object fields => by
    rw [resolve, Resolution.resolve]
    exact tracks_resolveScript pending fields
  | _, .null | _, .bool _ | _, .number _ => by
    simp only [resolve, Resolution.resolve]
    exact tracks_fault _

theorem tracks_resolveAll (hr : ∀ pending text, Tracks (redirect pending text) (target text)) :
    ∀ pending documents, Tracks (resolveAll host redirect pending documents)
      (Resolution.resolveAll host target documents)
  | _, [] => by
    rw [resolveAll, Resolution.resolveAll]
    exact tracks_done
  | pending, document :: rest => by
    intro s
    rw [resolveAll, Resolution.run_resolveAll_cons]
    exact (tracks_resolve hr _ document).inTurn (tracks_resolveAll hr pending rest) s

end

theorem tracks_resolveSource (hr : ∀ pending text, Tracks (redirect pending text) (target text))
    (pending : Bool) (locator : String) : Tracks (resolveSource host redirect pending locator)
      (Resolution.resolveSource host target locator) := by
  intro s
  unfold resolveSource Resolution.resolveSource
  cases Resolution.read host locator with
  | error f => rfl
  | ok documents => exact tracks_resolveAll hr pending documents s

theorem tracks_follow (depth : Nat) (pending : Bool) (text : String) :
    Tracks (follow host depth pending text) (Resolution.follow host depth text) := by
  induction depth generalizing pending text with
  | zero => exact fun _ => rfl
  | succ depth ih => exact fun s => tracks_resolveSource ih pending _ s

theorem tracks_resolveSources (hr : ∀ pending text, Tracks (redirect pending text) (target text))
    (pending : Bool) (sources : List String) :
    Tracks (resolveSources host redirect pending sources)
      (Resolution.resolveSources host target sources) := by
  induction sources with
  | nil => exact tracks_done
  | cons source rest ih =>
    intro s
    rw [resolveSources, Resolution.run_resolveSources_cons]
    exact (tracks_resolveSource hr _ source).inTurn ih s

end Ending

/-! ## Deeper redirects -/

/-- A course goes on from where another one stopped, or is the same one if that ended. -/
structure Within (c c' : Course) : Prop where
  deeds : c.deeds <+: c'.deeds
  ended : c.ending ≠ none → c' = c

theorem Within.refl (c : Course) : c.Within c := ⟨List.prefix_rfl, fun _ => rfl⟩

theorem Within.trans {c c' c'' : Course} (h : c.Within c') (h' : c'.Within c'') :
    c.Within c'' where
  deeds := h.deeds.trans h'.deeds
  ended he := by
    have hc := h.ended he
    rw [h'.ended (hc ▸ he), hc]

theorem deeds_andThen (c : Course) (next : Session → Course) :
    c.deeds <+: (c.andThen next).deeds := by
  unfold andThen
  split
  · exact List.prefix_append _ _
  · exact List.prefix_rfl

theorem Within.andThen {c c' : Course} {next next' : Session → Course} (h : c.Within c')
    (hn : ∀ s, (next s).Within (next' s)) : (c.andThen next).Within (c'.andThen next') := by
  rcases hc : c.ending with _ | ⟨f | _, t⟩
  · rw [andThen_of_not_ok (by simp [hc])]
    exact ⟨h.deeds.trans (deeds_andThen c' next'), fun he => (he hc).elim⟩
  · obtain rfl := h.ended (by simp [hc])
    rw [andThen_of_not_ok (by simp [hc]), andThen_of_not_ok (by simp [hc])]
    exact .refl _
  · obtain rfl := h.ended (by simp [hc])
    rw [andThen_of_ok hc, andThen_of_ok hc]
    refine ⟨(List.prefix_append_right_inj _).mpr (hn t).deeds, fun he => ?_⟩
    simp only [(hn t).ended he]

theorem Within.inTurn {first first' rest rest' : Session → Course}
    (hf : ∀ s, (first s).Within (first' s)) (hn : ∀ s, (rest s).Within (rest' s)) (s : Session) :
    (inTurn first rest s).Within (inTurn first' rest' s) := by
  unfold Course.inTurn
  split
  · exact .refl _
  · exact (hf s).andThen hn

theorem resolveText_within
    (hr : ∀ pending text s, (redirect pending text s).Within (redirect' pending text s))
    (pending : Bool) (text : String) (s : Session) :
    (resolveText host redirect pending text s).Within
      (resolveText host redirect' pending text s) := by
  unfold resolveText
  split
  · exact hr ..
  · exact .refl _

mutual

theorem resolve_within
    (hr : ∀ pending text s, (redirect pending text s).Within (redirect' pending text s)) :
    ∀ pending document s,
    (resolve host redirect pending document s).Within (resolve host redirect' pending document s)
  | pending, .string text, s => by
    rw [resolve, resolve]
    exact resolveText_within hr pending text s
  | pending, .array items, s => by
    rw [resolve, resolve]
    exact resolveAll_within hr pending items s
  | _, .object fields, s => by
    rw [resolve, resolve]
    exact .refl _
  | _, .null, _ | _, .bool _, _ | _, .number _, _ => by
    simp only [resolve]
    exact .refl _

theorem resolveAll_within
    (hr : ∀ pending text s, (redirect pending text s).Within (redirect' pending text s)) :
    ∀ pending documents s,
    (resolveAll host redirect pending documents s).Within
      (resolveAll host redirect' pending documents s)
  | _, [], _ => by
    rw [resolveAll, resolveAll]
    exact .refl _
  | pending, document :: rest, s => by
    rw [resolveAll, resolveAll]
    exact .inTurn (resolve_within hr _ document) (resolveAll_within hr pending rest) s

end

theorem resolveSource_within
    (hr : ∀ pending text s, (redirect pending text s).Within (redirect' pending text s))
    (pending : Bool) (locator : String) (s : Session) :
    (resolveSource host redirect pending locator s).Within
      (resolveSource host redirect' pending locator s) := by
  unfold resolveSource
  split
  · exact .refl _
  · rename_i documents _
    have h : (resolveAll host redirect pending documents s).Within _ :=
      resolveAll_within hr pending documents s
    refine ⟨List.cons_prefix_cons.mpr ⟨rfl, h.deeds⟩, fun he => ?_⟩
    simp only [h.ended he]

theorem resolveSources_within
    (hr : ∀ pending text s, (redirect pending text s).Within (redirect' pending text s))
    (pending : Bool) (sources : List String) (s : Session) :
    (resolveSources host redirect pending sources s).Within
      (resolveSources host redirect' pending sources s) := by
  induction sources generalizing s with
  | nil => exact .refl _
  | cons source rest ih =>
    rw [resolveSources, resolveSources]
    exact .inTurn (resolveSource_within hr _ source) ih s

theorem follow_within {depth depth' : Nat} (hd : depth ≤ depth') (pending : Bool) (text : String)
    (s : Session) :
    (follow host depth pending text s).Within (follow host depth' pending text s) := by
  have hs : ∀ depth pending text s,
      (follow host depth pending text s).Within (follow host (depth + 1) pending text s) := by
    intro depth
    induction depth with
    | zero => exact fun _ _ _ => ⟨List.nil_prefix, fun h => (h rfl).elim⟩
    | succ depth ih => exact fun pending _ s => resolveSource_within ih pending _ s
  induction hd with
  | refl => exact .refl _
  | step _ ih => exact ih.trans (hs ..)

/-! ## What a course depends on -/

theorem runScript_same (h : host'.transport = host.transport) (script : Script) :
    runScript host' pending script s = runScript host pending script s := by
  obtain ⟨transport, read⟩ := host
  obtain ⟨transport', read'⟩ := host'
  cases h
  rfl

theorem andThen_same {c : Course} {next next' : Session → Course}
    (h : host.SameFor (c.andThen next).deeds host')
    (hn : ∀ s, host.SameFor (next s).deeds host' → next' s = next s) :
    c.andThen next' = c.andThen next := by
  by_cases hok : ∃ s, c.ending = some (.ok (), s)
  · obtain ⟨s, hs⟩ := hok
    rw [andThen_of_ok hs] at h
    rw [andThen_of_ok hs, andThen_of_ok hs, hn s (h.mono (List.subset_append_right _ _))]
  · have hs : ∀ s, c.ending ≠ some (.ok (), s) := fun s hs => hok ⟨s, hs⟩
    rw [andThen_of_not_ok hs, andThen_of_not_ok hs]

theorem inTurn_same {first first' rest rest' : Session → Course}
    (h : host.SameFor (inTurn first rest s).deeds host')
    (hf : host.SameFor (first s).deeds host' → first' s = first s)
    (hn : ∀ s, host.SameFor (rest s).deeds host' → rest' s = rest s) :
    inTurn first' rest' s = inTurn first rest s := by
  unfold inTurn at h ⊢
  split
  · rfl
  · rename_i hs
    rw [if_neg hs] at h
    rw [hf (h.mono (deeds_andThen _ _).subset)]
    exact andThen_same h hn

theorem resolveText_same (hr : ∀ pending text s,
      host.SameFor (redirect pending text s).deeds host' →
        redirect' pending text s = redirect pending text s)
    {text : String} (h : host.SameFor (resolveText host redirect pending text s).deeds host') :
    resolveText host' redirect' pending text s = resolveText host redirect pending text s := by
  obtain ⟨rest, ht⟩ | ht := at_or_name text
  · rw [resolveText_of_at ht] at h
    rw [resolveText_of_at ht, resolveText_of_at ht, hr _ _ _ h]
  · rw [resolveText_of_name ht, resolveText_of_name ht]
    simp only [runScript_same h.transport]

theorem resolveScript_same (h : host'.transport = host.transport) (fields : Fields Json) :
    resolveScript host' pending fields s = resolveScript host pending fields s := by
  unfold resolveScript
  simp only [runScript_same h]

mutual

theorem resolve_same (hr : ∀ pending text s,
      host.SameFor (redirect pending text s).deeds host' →
        redirect' pending text s = redirect pending text s) :
    ∀ pending document s, host.SameFor (resolve host redirect pending document s).deeds host' →
      resolve host' redirect' pending document s = resolve host redirect pending document s
  | pending, .string text, s, h => by
    rw [resolve] at h ⊢
    rw [resolve]
    exact resolveText_same hr h
  | pending, .array items, s, h => by
    rw [resolve] at h ⊢
    rw [resolve]
    exact resolveAll_same hr pending items s h
  | _, .object fields, s, h => by
    rw [resolve, resolve]
    exact resolveScript_same h.transport fields
  | _, .null, _, _ | _, .bool _, _, _ | _, .number _, _, _ => by
    simp only [resolve]

theorem resolveAll_same (hr : ∀ pending text s,
      host.SameFor (redirect pending text s).deeds host' →
        redirect' pending text s = redirect pending text s) :
    ∀ pending documents s,
      host.SameFor (resolveAll host redirect pending documents s).deeds host' →
        resolveAll host' redirect' pending documents s =
          resolveAll host redirect pending documents s
  | _, [], _, _ => by rw [resolveAll, resolveAll]
  | pending, document :: rest, s, h => by
    rw [resolveAll] at h ⊢
    rw [resolveAll]
    exact inTurn_same h (resolve_same hr _ document s) (resolveAll_same hr pending rest)

end

theorem resolveSource_same (hr : ∀ pending text s,
      host.SameFor (redirect pending text s).deeds host' →
        redirect' pending text s = redirect pending text s)
    {locator : String}
    (h : host.SameFor (resolveSource host redirect pending locator s).deeds host') :
    resolveSource host' redirect' pending locator s =
      resolveSource host redirect pending locator s := by
  have hmem : .read locator ∈ (resolveSource host redirect pending locator s).deeds := by
    unfold resolveSource
    split <;> exact List.mem_cons_self
  have hread : Resolution.read host' locator = Resolution.read host locator := by
    rw [Resolution.read, Resolution.read, h.read locator hmem]
  unfold resolveSource at h ⊢
  rw [hread]
  cases hd : Resolution.read host locator with
  | error f => rfl
  | ok documents =>
    rw [hd] at h
    have hall := resolveAll_same hr pending documents s (h.mono (List.subset_cons_self _ _))
    simp only [hall]

theorem resolveSources_same (hr : ∀ pending text s,
      host.SameFor (redirect pending text s).deeds host' →
        redirect' pending text s = redirect pending text s)
    (sources : List String)
    (h : host.SameFor (resolveSources host redirect pending sources s).deeds host') :
    resolveSources host' redirect' pending sources s =
      resolveSources host redirect pending sources s := by
  induction sources generalizing s with
  | nil => rfl
  | cons source rest ih =>
    rw [resolveSources] at h ⊢
    rw [resolveSources]
    exact inTurn_same h (resolveSource_same hr) fun _ => ih

theorem follow_same (depth : Nat) : ∀ pending text s,
    host.SameFor (follow host depth pending text s).deeds host' →
      follow host' depth pending text s = follow host depth pending text s := by
  induction depth with
  | zero => exact fun _ _ _ _ => rfl
  | succ depth ih => exact fun _ _ _ h => resolveSource_same ih h

end Course

theorem Task.ending_course (task : Task) (host : Host) (depth : Nat) (s : Session) :
    (task.course host depth s).ending = (task.run host depth).run.run s := by
  rw [task.run_eq_body]
  have hr : ∀ pending text, Course.Tracks (Course.follow host depth pending text)
      (Resolution.follow host depth text) := Course.tracks_follow depth
  cases task with
  | script script => rfl
  | document document => exact Course.tracks_resolve hr _ document _
  | documents documents | execute documents => exact Course.tracks_resolveAll hr _ documents _
  | executeSource source => exact Course.tracks_resolveSource hr _ source _
  | executeSources sources => exact Course.tracks_resolveSources hr _ sources _

theorem Task.course_within {depth depth' : Nat} (hd : depth ≤ depth') (task : Task) (host : Host)
    (s : Session) : (task.course host depth s).Within (task.course host depth' s) := by
  have hr : ∀ pending text s, (Course.follow host depth pending text s).Within
      (Course.follow host depth' pending text s) := Course.follow_within hd
  cases task with
  | script script => exact .refl _
  | document document => exact Course.resolve_within hr _ document _
  | documents documents | execute documents => exact Course.resolveAll_within hr _ documents _
  | executeSource source => exact Course.resolveSource_within hr _ source _
  | executeSources sources => exact Course.resolveSources_within hr _ sources _

/-- A task goes the same way if the sources that it does not read are other ones. -/
theorem Task.course_same {host host' : Host} {s : Session} (task : Task) (depth : Nat)
    (h : host.SameFor (task.course host depth s).deeds host') :
    task.course host' depth s = task.course host depth s := by
  have hr : ∀ pending text s, host.SameFor (Course.follow host depth pending text s).deeds host' →
      Course.follow host' depth pending text s = Course.follow host depth pending text s :=
    Course.follow_same depth
  cases task with
  | script script => exact Course.runScript_same h.transport script
  | document document => exact Course.resolve_same hr _ document _ h
  | documents documents | execute documents => exact Course.resolveAll_same hr _ documents _ h
  | executeSource source => exact Course.resolveSource_same hr h
  | executeSources sources => exact Course.resolveSources_same hr sources h

end ApiScript
