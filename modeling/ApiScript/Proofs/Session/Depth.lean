import ApiScript.Proofs.Session.Task

/-! # How a task ends

A task ends when it does so with redirects followed to some depth. To follow them deeper never
changes how it ends, so a task ends in one way at most.
-/

namespace ApiScript

variable {host : Host} {s t u : Session} {result result' : Except Fault Unit}

namespace Resolution

/-- However one resolution ends, another one ends. -/
def Within (x y : Resolution) : Prop := ∀ s result t, x.Ends s result t → y.Ends s result t

variable {x x' y y' : Resolution} {redirect redirect' : Redirect}

theorem Within.refl (x : Resolution) : x.Within x := fun _ _ _ h => h

theorem Within.trans {z : Resolution} (h : x.Within y) (h' : y.Within z) : x.Within z :=
  fun s result t hx => h' s result t (h s result t hx)

theorem Within.bind (hx : x.Within x') (hy : y.Within y') :
    Within (x >>= fun _ => y) (x' >>= fun _ => y') := by
  intro s result t h
  rw [ends_bind] at h ⊢
  rcases h with ⟨f, h, rfl⟩ | ⟨u, h, h'⟩
  · exact .inl ⟨f, hx _ _ _ h, rfl⟩
  · exact .inr ⟨u, hx _ _ _ h, hy _ _ _ h'⟩

theorem Within.inTurn (hx : x.Within x') (hy : y.Within y')
    (h : if s.observe.cancelled then result = .ok () ∧ t = s.observe
      else Ends (x >>= fun _ => y) s.observe result t) :
    if s.observe.cancelled then result = .ok () ∧ t = s.observe
    else Ends (x' >>= fun _ => y') s.observe result t := by
  split at h
  · rwa [if_pos ‹_›]
  · rw [if_neg ‹_›]
    exact hx.bind hy _ _ _ h

theorem resolveText_within (hr : ∀ text, (redirect text).Within (redirect' text)) (text : String) :
    (resolveText host redirect text).Within (resolveText host redirect' text) := by
  intro s result t h
  rw [ends_resolveText] at h ⊢
  rcases h with ⟨rest, hl, h⟩ | h
  · exact .inl ⟨rest, hl, hr _ _ _ _ h⟩
  · exact .inr h

mutual

theorem resolve_within (hr : ∀ text, (redirect text).Within (redirect' text)) :
    ∀ document, (resolve host redirect document).Within (resolve host redirect' document)
  | .string text => by
    rw [resolve, resolve]
    exact resolveText_within hr text
  | .array items => by
    rw [resolve, resolve]
    exact resolveAll_within hr items
  | .object fields => by
    rw [resolve, resolve]
    exact .refl _
  | .null | .bool _ | .number _ => by
    simp only [resolve]
    exact .refl _

theorem resolveAll_within (hr : ∀ text, (redirect text).Within (redirect' text)) :
    ∀ documents, (resolveAll host redirect documents).Within (resolveAll host redirect' documents)
  | [] => by
    rw [resolveAll, resolveAll]
    exact .refl _
  | document :: rest => by
    intro s result t h
    rw [ends_resolveAll_cons] at h ⊢
    exact Within.inTurn (resolve_within hr document) (resolveAll_within hr rest) h

end

theorem resolveSource_within (hr : ∀ text, (redirect text).Within (redirect' text))
    (source : String) :
    (resolveSource host redirect source).Within (resolveSource host redirect' source) := by
  intro s result t h
  rw [ends_resolveSource] at h ⊢
  rcases h with h | ⟨documents, hd, h⟩
  · exact .inl h
  · exact .inr ⟨documents, hd, resolveAll_within hr documents _ _ _ h⟩

theorem resolveSources_within (hr : ∀ text, (redirect text).Within (redirect' text))
    (sources : List String) :
    (resolveSources host redirect sources).Within (resolveSources host redirect' sources) := by
  induction sources with
  | nil => exact .refl _
  | cons source rest ih =>
    intro s result t h
    rw [ends_resolveSources_cons] at h ⊢
    exact Within.inTurn (resolveSource_within hr source) ih h

theorem follow_within_succ (depth : Nat) (text : String) :
    (follow host depth text).Within (follow host (depth + 1) text) := by
  induction depth generalizing text with
  | zero => exact fun _ _ _ h => (not_ends_unending h).elim
  | succ depth ih => exact fun _ _ _ h => resolveSource_within ih _ _ _ _ h

theorem follow_within {depth depth' : Nat} (hd : depth ≤ depth') (text : String) :
    (follow host depth text).Within (follow host depth' text) := by
  induction hd with
  | refl => exact .refl _
  | step _ ih => exact ih.trans (follow_within_succ _ text)

end Resolution

namespace Task

variable {task : Task}

open Resolution in
theorem run_within {depth depth' : Nat} (hd : depth ≤ depth') (task : Task) :
    (task.run host depth).Within (task.run host depth') := by
  have hf : ∀ text, (follow host depth text).Within (follow host depth' text) := follow_within hd
  cases task with
  | script script => exact .refl _
  | document document => exact resolve_within hf document
  | documents documents => exact resolveAll_within hf documents
  | execute documents => exact fun _ _ _ h => resolveAll_within hf documents _ _ _ h
  | executeSource source => exact fun _ _ _ h => resolveSource_within hf source _ _ _ h
  | executeSources sources => exact fun _ _ _ h => resolveSources_within hf sources _ _ _ h

/-- A task ends, however deep its redirects go. -/
def Ends (task : Task) (host : Host) (s : Session) (result : Except Fault Unit) (t : Session) :
    Prop :=
  ∃ depth, (task.run host depth).Ends s result t

theorem Ends.unique (h : task.Ends host s result t) (h' : task.Ends host s result' u) :
    result = result' ∧ t = u := by
  obtain ⟨depth, h⟩ := h
  obtain ⟨depth', h'⟩ := h'
  exact (run_within (depth.le_max_left depth') task _ _ _ h).unique
    (run_within (depth.le_max_right depth') task _ _ _ h')

theorem ends_iff_body : task.Ends host s result t ↔
    ∃ depth, (task.body host depth).Ends (task.opening s) result t := by
  unfold Ends Resolution.Ends
  simp only [run_eq_body]

theorem Ends.body (h : task.Ends host s result t) :
    ∃ depth, (task.body host depth).Ends (task.opening s) result t :=
  ends_iff_body.mp h

end Task

theorem Law.Holds.ends {law : Law} {task : Task} (hl : law.Holds host)
    (h : task.Ends host s result t) : law s result t := by
  obtain ⟨depth, h⟩ := h
  exact hl.task depth task h

end ApiScript
