import ApiScript.Proofs.Session.Bisimulation
import ApiScript.Proofs.Session.Depth

/-! # Lists of documents

Documents are resolved one after the other, and a list among them is as good as its elements in its
place, at any depth. The two ways differ in nothing but when an asked-for stop is observed.
-/

namespace ApiScript

variable {host : Host} {s t u v : Session} {result : Except Fault Unit}

mutual

def flatDocument : Json → List Json
  | .array items => flatDocuments items
  | document => [document]

/-- The documents with the elements of each list, at any depth, in the place of the list. -/
def flatDocuments : List Json → List Json
  | [] => []
  | document :: rest => flatDocument document ++ flatDocuments rest

end

example :
    flatDocuments [.array [.string "a", .array [], .array [.string "b"]], .null] =
      [.string "a", .string "b", .null] := by rfl

/-- Sessions that differ at most in what listeners were told, and in whether the session has
observed that it is to stop or has only been asked to. -/
structure Session.Alike (s t : Session) : Prop where
  env : s.env = t.env
  registry : s.registry = t.registry
  ledger : s.ledger = t.ledger
  plugins : s.plugins = t.plugins
  language : s.language = t.language
  sent : s.sent = t.sent
  raised : s.raised = t.raised
  isCancelled : s.isCancelled = t.isCancelled

namespace Session

namespace Alike

theorem refl (s : Session) : s.Alike s := ⟨rfl, rfl, rfl, rfl, rfl, rfl, rfl, rfl⟩

theorem symm (h : s.Alike t) : t.Alike s :=
  ⟨h.env.symm, h.registry.symm, h.ledger.symm, h.plugins.symm, h.language.symm, h.sent.symm,
    h.raised.symm, h.isCancelled.symm⟩

theorem trans (h : s.Alike t) (h' : t.Alike u) : s.Alike u :=
  ⟨h.env.trans h'.env, h.registry.trans h'.registry, h.ledger.trans h'.ledger,
    h.plugins.trans h'.plugins, h.language.trans h'.language, h.sent.trans h'.sent,
    h.raised.trans h'.raised, h.isCancelled.trans h'.isCancelled⟩

theorem observe_self (s : Session) : s.observe.Alike s := by
  obtain ⟨notifier, he⟩ := s.observe_eq
  have hc : (s.isCancelled || s.raised) = s.isCancelled := by
    simp [Session.isCancelled]
  rw [he]
  exact { refl s with isCancelled := hc }

theorem clearCancelled (h : s.Alike t) : s.clearCancelled.Alike t.clearCancelled := by
  obtain ⟨notifier, hs⟩ := s.clearCancelled_eq
  obtain ⟨notifier', ht⟩ := t.clearCancelled_eq
  rw [hs, ht]
  exact { h with raised := rfl, isCancelled := rfl }

theorem publishCount (h : s.Alike t) : s.publishCount.Alike t.publishCount := by
  have he : s.vars.env = t.vars.env := h.env
  simp only [Session.publishCount, Session.bind, Variables.bind, he, h.ledger]
  cases t.vars.env.bind countVariable (Json.ofNat t.ledger.failedAssertions) with
  | error f => exact h
  | ok env => exact { h with env := rfl, ledger := rfl }

/-- Nothing that is done to two sessions tells apart what they differ in. -/
theorem bisimulation (host : Host) : Bisimulation host host Session.Alike where
  read := rfl
  view h := ⟨h.env, h.plugins, h.language⟩
  registry h := h.registry
  answer h request := by rw [h.sent]
  cancelled h := by simpa using h.isCancelled
  bound h _ b := { h with env := (b.run_congr h.env).2 }
  sending h request := by
    unfold Session.sending
    rw [h.sent]
    split
    · have hc : ∀ s : Session, s.raise.isCancelled = true := fun s => by
        simp [Session.isCancelled, raise]
      exact { h with sent := rfl, raised := rfl, isCancelled := (hc _).trans (hc _).symm }
    · exact { h with sent := rfl }
  addCall h call := { h with ledger := by simp only [Session.addCall, fire, h.ledger] }
  increment h := by
    apply publishCount
    exact { h with ledger := by simp only [h.ledger] }
  setScript h name script := { h with registry := by simp only [Session.setScript, h.registry] }
  setTemplate h name template :=
    { h with registry := by simp only [Session.setTemplate, h.registry] }
  observe h := (observe_self _).trans (h.trans (observe_self _).symm)
  clearCancelled h := h.clearCancelled

end Alike

end Session

namespace Resolution

variable {redirect : Redirect} {document : Json}

theorem run_resolveAll_of_cancelled (h : s.cancelled = true) (documents : List Json) :
    (resolveAll host redirect documents).run.run s = some (.ok (), s) := by
  cases documents with
  | nil => rw [resolveAll]; rfl
  | cons document rest => rw [run_resolveAll_cons, Session.observe_of_cancelled h, if_pos h]

theorem resolveAll_of_isCancelled (host : Host) (redirect : Redirect)
    (h : s.isCancelled = true) (documents : List Json) :
    ∃ t, (resolveAll host redirect documents).run.run s = some (.ok (), t) ∧ t.Alike s := by
  cases documents with
  | nil => exact ⟨s, by rw [resolveAll]; rfl, .refl s⟩
  | cons document rest =>
    refine ⟨s.observe, ?_, .observe_self s⟩
    rw [run_resolveAll_cons, if_pos (by simpa using h)]

theorem resolveAll_append (a b : List Json) : resolveAll host redirect (a ++ b) =
    (resolveAll host redirect a >>= fun _ => resolveAll host redirect b) := by
  induction a with
  | nil => rw [List.nil_append, resolveAll, pure_bind]
  | cons document rest ih =>
    funext s
    change (resolveAll host redirect (document :: (rest ++ b))).run.run s =
      (resolveAll host redirect (document :: rest) >>= fun _ =>
        resolveAll host redirect b).run.run s
    rw [run_bind, run_resolveAll_cons, run_resolveAll_cons]
    split
    · rename_i h
      exact (run_resolveAll_of_cancelled h b).symm
    · rw [ih, ← bind_assoc, run_bind]

theorem agree_single (hr : ∀ text {s t}, s.Alike t →
      Agree Session.Alike (redirect text) s (redirect text) t)
    (h : s.Alike t) (hs : s.isCancelled = false) (document : Json) :
    Agree Session.Alike (resolve host redirect document) s
      (resolveAll host redirect [document]) t := by
  have ht : t.isCancelled = false := h.isCancelled.symm.trans hs
  have hst : s.Alike t.observe := h.trans (Session.Alike.observe_self t).symm
  have hn : resolveAll host redirect [] = pure () := by rw [resolveAll]
  rw [Agree, run_resolveAll_cons, if_neg (by simp [ht]), hn, bind_pure_unit]
  exact (Session.Alike.bisimulation host).resolve hr document hst

mutual

theorem agree_flatDocument (hr : ∀ text {s t}, s.Alike t →
      Agree Session.Alike (redirect text) s (redirect text) t) :
    ∀ document {s t}, s.Alike t → s.isCancelled = false →
      Agree Session.Alike (resolve host redirect document) s
        (resolveAll host redirect (flatDocument document)) t
  | .array items, s, t, h, _ => by
    rw [resolve, flatDocument]
    exact agree_flatDocuments hr items h
  | .null, s, t, h, hs | .bool _, s, t, h, hs | .number _, s, t, h, hs
  | .string _, s, t, h, hs | .object _, s, t, h, hs => agree_single hr h hs _

theorem agree_flatDocuments (hr : ∀ text {s t}, s.Alike t →
      Agree Session.Alike (redirect text) s (redirect text) t) :
    ∀ documents {s t}, s.Alike t →
      Agree Session.Alike (resolveAll host redirect documents) s
        (resolveAll host redirect (flatDocuments documents)) t
  | [], s, t, h => by
    rw [flatDocuments, resolveAll]
    exact agree_pure h
  | document :: rest, s, t, h => by
    rw [flatDocuments]
    cases hs : s.isCancelled with
    | true =>
      obtain ⟨t', ht, htt⟩ := resolveAll_of_isCancelled host redirect (h.isCancelled ▸ hs)
        (flatDocument document ++ flatDocuments rest)
      rw [Agree, run_resolveAll_cons, if_pos (by simpa using hs), ht]
      exact .some ⟨rfl, (Session.Alike.observe_self s).trans (h.trans htt.symm)⟩
    | false =>
      have ho : s.observe.Alike t := (Session.Alike.observe_self s).trans h
      have hc : s.observe.isCancelled = false := (Session.Alike.observe_self s).isCancelled.trans hs
      rw [Agree, run_resolveAll_cons, if_neg (by simp [hs]), resolveAll_append]
      exact (agree_flatDocument hr document ho hc).bind fun u v h =>
        agree_flatDocuments hr rest h

end

end Resolution

/-! ## What stays -/

def Session.Grows (s t : Session) : Prop :=
  s.ledger.calls <+: t.ledger.calls ∧ ∀ name, s.env.isBound name → t.env.isBound name

namespace Session.Grows

theorem refl (s : Session) : s.Grows s := ⟨List.prefix_refl _, fun _ h => h⟩

theorem trans (h : s.Grows t) (h' : t.Grows u) : s.Grows u :=
  ⟨h.1.trans h'.1, fun name hb => h'.2 name (h.2 name hb)⟩

theorem absorb (s : Session) (call : Call) : s.Grows (s.absorb call) := by
  obtain ⟨v, he, hv⟩ := s.absorb_eq call
  rw [he]
  exact ⟨List.prefix_append _ _, hv⟩

theorem record {found : Except Fault (Option Call)} (h : s.Records found result t) :
    s.Grows t := by
  cases h with
  | nothing => exact refl s
  | passed => exact ⟨List.prefix_append _ _, fun _ h => h⟩
  | failed => exact absorb s _
  | carried => exact absorb s _
  | fault => exact refl s

end Session.Grows

theorem growing (host : Host) : Law.Holds (fun s _ t => s.Grows t) host := by
  refine .of_keeps (fun h => ?_) (fun h h' => h.trans h') (fun s _ _ => .refl s) ?_
  · exact ⟨h.ledger ▸ List.prefix_refl _, fun name hb => h.env ▸ hb⟩
  · intro script s result t h
    obtain ⟨found, u, hr, hu⟩ := ends_runScript.mp (Resolution.ends_ofRun.mp h)
    have hs : s.Grows u :=
      ⟨Execution.run_ledger hr ▸ List.prefix_refl _, fun name hb => Execution.run_isBound hr hb⟩
    exact hs.trans (.record hu)

/-! ## Where a list fails -/

namespace Resolution

variable {redirect : Redirect} {f : Fault}

/-- Documents that end with a fault do so at one of them, and those before it end well. -/
theorem ends_resolveAll_error {documents : List Json}
    (h : (resolveAll host redirect documents).Ends s (.error f) t) :
    ∃ before document after u, documents = before ++ document :: after ∧
      (resolveAll host redirect before).Ends s (.ok ()) u ∧ u.isCancelled = false ∧
      (resolve host redirect document).Ends u (.error f) t := by
  induction documents generalizing s with
  | nil => cases (ends_resolveAll_nil.mp h).1
  | cons document rest ih =>
    rw [ends_resolveAll_cons] at h
    split at h
    · cases h.1
    · rename_i hc
      rw [Session.observe_cancelled, Bool.not_eq_true] at hc
      rw [Session.observe_of_not_isCancelled hc] at h
      rcases ends_bind.mp h with ⟨g, hd, hg⟩ | ⟨u, hd, hr⟩
      · cases hg
        exact ⟨[], document, rest, s, rfl, ends_resolveAll_nil.mpr ⟨rfl, rfl⟩, hc, hd⟩
      · obtain ⟨before, failing, after, v, rfl, hb, hv, hf⟩ := ih hr
        refine ⟨document :: before, failing, after, v, rfl, ?_, hv, hf⟩
        rw [ends_resolveAll_cons, Session.observe_cancelled, if_neg (by simp [hc]),
          Session.observe_of_not_isCancelled hc]
        exact ends_bind.mpr (.inr ⟨u, hd, hb⟩)

end Resolution

mutual

theorem not_array_of_mem_flatDocument {leaf : Json} {items : List Json} :
    ∀ document, leaf ∈ flatDocument document → leaf ≠ .array items
  | .array items', h => not_array_of_mem_flatDocuments items' (by simpa [flatDocument] using h)
  | .null, h | .bool _, h | .number _, h | .string _, h | .object _, h => by
    simp only [flatDocument, List.mem_singleton] at h
    simp [h]

theorem not_array_of_mem_flatDocuments {leaf : Json} {items : List Json} :
    ∀ documents, leaf ∈ flatDocuments documents → leaf ≠ .array items
  | [], h => by simp [flatDocuments] at h
  | document :: rest, h => by
    rw [flatDocuments, List.mem_append] at h
    rcases h with h | h
    · exact not_array_of_mem_flatDocument document h
    · exact not_array_of_mem_flatDocuments rest h

end

namespace Task

variable {a b documents : List Json}

theorem ends_append :
    (Task.documents (a ++ b)).Ends host s result t ↔
      (∃ f, (Task.documents a).Ends host s (.error f) t ∧ result = .error f) ∨
        ∃ u, (Task.documents a).Ends host s (.ok ()) u ∧
          (Task.documents b).Ends host u result t := by
  have happ : ∀ depth, ((Task.documents (a ++ b)).run host depth).Ends s result t ↔
      (∃ f, ((Task.documents a).run host depth).Ends s (.error f) t ∧ result = .error f) ∨
        ∃ u, ((Task.documents a).run host depth).Ends s (.ok ()) u ∧
          ((Task.documents b).run host depth).Ends u result t := by
    intro depth
    refine Iff.trans (iff_of_eq ?_) (Resolution.ends_bind (x := (Task.documents a).run host depth)
      (k := fun _ => (Task.documents b).run host depth))
    exact congrArg (Resolution.Ends · s result t) (Resolution.resolveAll_append a b)
  constructor
  · rintro ⟨depth, h⟩
    rcases (happ depth).mp h with ⟨f, ha, rfl⟩ | ⟨u, ha, hb⟩
    · exact .inl ⟨f, ⟨depth, ha⟩, rfl⟩
    · exact .inr ⟨u, ⟨depth, ha⟩, ⟨depth, hb⟩⟩
  · rintro (⟨f, ⟨depth, ha⟩, rfl⟩ | ⟨u, ⟨depth, ha⟩, ⟨depth', hb⟩⟩)
    · exact ⟨depth, (happ depth).mpr (.inl ⟨f, ha, rfl⟩)⟩
    · exact ⟨max depth depth', (happ _).mpr (.inr ⟨u,
        run_within (depth.le_max_left depth') _ _ _ _ ha,
        run_within (depth.le_max_right depth') _ _ _ _ hb⟩)⟩

theorem ends_flat :
    (∀ t, (Task.documents documents).Ends host s result t →
      ∃ v, (Task.documents (flatDocuments documents)).Ends host s result v ∧ t.Alike v) ∧
    ∀ v, (Task.documents (flatDocuments documents)).Ends host s result v →
      ∃ t, (Task.documents documents).Ends host s result t ∧ t.Alike v := by
  have ha : ∀ depth, Resolution.Agree Session.Alike ((Task.documents documents).run host depth) s
      ((Task.documents (flatDocuments documents)).run host depth) s := by
    intro depth
    refine Resolution.agree_flatDocuments (fun text _ _ h => ?_) documents (.refl s)
    exact (Session.Alike.bisimulation host).follow depth text h
  constructor
  · rintro t ⟨depth, h⟩
    obtain ⟨v, hv, hs⟩ := (ha depth).ends h
    exact ⟨v, ⟨depth, hv⟩, hs⟩
  · rintro v ⟨depth, h⟩
    obtain ⟨t, ht, hs⟩ := (ha depth).symm.ends h
    exact ⟨t, ⟨depth, ht⟩, hs⟩

theorem ends_error {f : Fault} (h : (Task.documents documents).Ends host s (.error f) t) :
    ∃ before document after u, documents = before ++ document :: after ∧
      (Task.documents before).Ends host s (.ok ()) u ∧ u.isCancelled = false ∧
      (Task.document document).Ends host u (.error f) t := by
  obtain ⟨depth, h⟩ := h
  obtain ⟨before, document, after, u, he, hb, hc, hd⟩ := Resolution.ends_resolveAll_error h
  exact ⟨before, document, after, u, he, ⟨depth, hb⟩, hc, ⟨depth, hd⟩⟩

/-- Documents in turn are some of them and then, if these end well, the others. They are their
elements that are no lists, from first to last at any depth. If they fail, one of these elements
does, after those before it ended well and with all that these did in place, and nothing comes
after it. -/
theorem documents_sequential (host : Host) (s : Session) (a b documents : List Json) :
    (∀ result t, (Task.documents (a ++ b)).Ends host s result t ↔
      (∃ f, (Task.documents a).Ends host s (.error f) t ∧ result = .error f) ∨
        ∃ u, (Task.documents a).Ends host s (.ok ()) u ∧
          (Task.documents b).Ends host u result t) ∧
    (∀ result t, (Task.documents documents).Ends host s result t →
      ∃ v, (Task.documents (flatDocuments documents)).Ends host s result v ∧ t.Alike v) ∧
    (∀ result v, (Task.documents (flatDocuments documents)).Ends host s result v →
      ∃ t, (Task.documents documents).Ends host s result t ∧ t.Alike v) ∧
    ∀ f t, (Task.documents documents).Ends host s (.error f) t →
      ∃ before document after u v, flatDocuments documents = before ++ document :: after ∧
        (∀ items, document ≠ .array items) ∧
        (Task.documents before).Ends host s (.ok ()) u ∧ u.isCancelled = false ∧
        (Task.document document).Ends host u (.error f) v ∧ u.Grows v ∧ v.Alike t := by
  refine ⟨fun _ _ => ends_append, fun _ => ends_flat.1, fun _ => ends_flat.2, fun f t h => ?_⟩
  obtain ⟨v, hv, hs⟩ := ends_flat.1 t h
  obtain ⟨before, document, after, u, he, hb, hc, hd⟩ := ends_error hv
  refine ⟨before, document, after, u, v, he, fun items => ?_, hb, hc, hd, ?_, hs.symm⟩
  · exact not_array_of_mem_flatDocuments documents (by simp [he])
  · exact (growing host).ends hd

end Task

end ApiScript
