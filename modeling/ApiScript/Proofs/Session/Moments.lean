import ApiScript.Proofs.Session.Outcome
import ApiScript.Proofs.Session.Reserved

/-! # The moments of a run

While a script runs, it looks at its session again and again: between two bindings, when it is
judged and when its request is made. What is kept by sending and by each binding holds at all these
moments.
-/

namespace ApiScript.Execution

variable {host : Host} {s t u v : Session} {script m : Script} {result : Except Fault Unit}
  {call : CallContext} {b : Binding Unit} {P : Session → Prop}

/-- The sessions in which a run looks at anything: when it begins; between two bindings of its own
variables or of an extractor; when its variables are bound, with which it is judged whether to go on
and the request is made; when an answer has come; and when values are taken from it, with which the
assertions are judged. -/
inductive Visits (host : Host) (script : Script) (s : Session) : Session → Prop where
  | start : Visits host script s s
  | binding {b : Binding Unit} {x : Session} {v : Variables} : Comes host script s b x →
      b.Visits x.vars v → Visits host script s { x with vars := v }
  | bound {m : Script} {result : Except Fault Unit} {u : Session} :
      (complete script).Ends s (.ok m) s → (bindEnv m).Ends s result u → Visits host script s u
  | sent {m : Script} {result : Except Fault CallContext} {u v : Session} :
      Proceeds script s m u → (exchange host m).Ends u result v → Visits host script s v
  | extracted {m : Script} {call : CallContext} {result : Except Fault Unit} {u v w : Session} :
      Proceeds script s m u → (exchange host m).Ends u (.ok call) v →
      (extract call).Ends v result w → Visits host script s w

theorem visits_of_run {found : Except Fault (Option Call)} (h : (run host script).Ends s found t) :
    Visits host script s t := by
  cases ends_run_iff.mp h with
  | templates hm => exact .start
  | env hm hb | condition hm hb | skipped hm hb | preconditions hm hb | refused hm hb =>
    exact .bound hm hb
  | request hp he => exact .sent hp he
  | bind hp he hx | assert hp he hx | judged hp he hx => exact .extracted hp he hx

/-! ## What every moment of a run keeps -/

def BindingsKeep (P : Session → Prop) (host : Host) (script : Script) (s : Session) : Prop :=
  ∀ b x, Comes host script s b x → P x → ∀ v, b.Visits x.vars v → P { x with vars := v }

theorem keeps_ofBinding (hb : Comes host script s b u) (hk : BindingsKeep P host script s)
    (hu : P u) (h : (Run.ofBinding b).Ends u result t) : P t := by
  obtain ⟨-, rfl⟩ := Run.ends_ofBinding.mp h
  exact hk b u hb hu _ (b.visits_run u.vars)

theorem keeps_bindEnv (hm : (complete script).Ends s (.ok m) s)
    (hk : BindingsKeep P host script s) (hs : P s) (h : (bindEnv m).Ends s result u) : P u := by
  unfold bindEnv at h
  split at h
  · obtain ⟨-, rfl⟩ := Run.ends_pure.mp h
    exact hs
  · exact keeps_ofBinding (.bindVariables hm ‹_›) hk hs h
  · obtain ⟨-, rfl⟩ := Run.ends_throw.mp h
    exact hs

theorem ends_extractItems_nil (call : CallContext) (s : Session) :
    (extractItems call []).Ends s (.ok ()) s :=
  Run.ends_pure.mpr ⟨rfl, rfl⟩

theorem ends_extractItems_start {before : List Json}
    (h : (extractItems call before).Ends s (.ok ()) t) :
    Run.Ends (extractItems call before >>= fun _ => extractFields call []) s (.ok ()) t :=
  Run.ends_bind.mpr (.inr ⟨(), t, h, Run.ends_pure.mpr ⟨rfl, rfl⟩⟩)

theorem ends_extractFields_concat {before : List Json} {seen : Fields Json} {key : String}
    {spec : Json} {plugin : Extractor} {w x : Session}
    (hw : Run.Ends (extractItems call before >>= fun _ => extractFields call seen) v (.ok ()) w)
    (hp : Execution.extractor w key = .ok plugin)
    (hx : (Run.ofBinding (plugin spec call)).Ends w (.ok ()) x) :
    Run.Ends (extractItems call before >>= fun _ => extractFields call (seen ++ [(key, spec)]))
      v (.ok ()) x := by
  rcases Run.ends_bind.mp hw with ⟨f, -, hf⟩ | ⟨_, y, hitems, hseen⟩
  · cases hf
  have hlast : (extractFields call [(key, spec)]).Ends w (.ok ()) x := by
    rw [extractFields, Run.ends_get_bind]
    refine Run.ends_lift_bind.mpr (.inr ⟨plugin, hp, Run.ends_bind.mpr (.inr ⟨(), x, hx, ?_⟩)⟩)
    exact Run.ends_pure.mpr ⟨rfl, rfl⟩
  refine Run.ends_bind.mpr (.inr ⟨(), y, hitems, ?_⟩)
  rw [extractFields_append]
  exact Run.ends_bind.mpr (.inr ⟨(), w, hseen, hlast⟩)

/-- The induction is on the fields that are left; `seen` are those before them. -/
theorem keeps_extractFields (hp : Proceeds script s m u)
    (he : (exchange host m).Ends u (.ok call) v) (hk : BindingsKeep P host script s)
    {before after : List Json} {seen fields rest : Fields Json} {w : Session}
    (hl : call.script.list "bind" = before ++ .object (seen ++ (fields ++ rest)) :: after)
    (hw : Run.Ends (extractItems call before >>= fun _ => extractFields call seen) v (.ok ()) w)
    (hP : P w) (h : (extractFields call fields).Ends w result t) : P t := by
  induction fields generalizing seen w with
  | nil =>
    obtain ⟨-, rfl⟩ := Run.ends_pure.mp h
    exact hP
  | cons field fields ih =>
    obtain ⟨key, spec⟩ := field
    rw [extractFields, Run.ends_get_bind] at h
    rcases Run.ends_lift_bind.mp h with ⟨f, -, -, rfl⟩ | ⟨plugin, hplugin, hbind⟩
    · exact hP
    have hc : Comes host script s (plugin spec call) w :=
      .extractor hp.completed hp.bound hp.holds hp.met he hl hw hplugin
    rcases Run.ends_bind.mp hbind with ⟨f, hfail, -⟩ | ⟨_, x, hx, hrest⟩
    · exact keeps_ofBinding hc hk hP hfail
    have hl' : call.script.list "bind" =
        before ++ .object ((seen ++ [(key, spec)]) ++ (fields ++ rest)) :: after := by
      simpa using hl
    exact ih hl' (ends_extractFields_concat hw hplugin hx) (keeps_ofBinding hc hk hP hx) hrest

/-- The induction is on the items that are left; `before` are those before them. -/
theorem keeps_extractItems (hp : Proceeds script s m u)
    (he : (exchange host m).Ends u (.ok call) v) (hk : BindingsKeep P host script s)
    {before items after : List Json} {w : Session}
    (hl : call.script.list "bind" = before ++ (items ++ after))
    (hw : (extractItems call before).Ends v (.ok ()) w) (hP : P w)
    (h : (extractItems call items).Ends w result t) : P t := by
  induction items generalizing before w with
  | nil =>
    obtain ⟨-, rfl⟩ := Run.ends_pure.mp h
    exact hP
  | cons item items ih =>
    cases item with
    | object fields =>
      have hfields : ∀ {result x}, (extractFields call fields).Ends w result x → P x := by
        intro result x hx
        have hl' : call.script.list "bind" =
            before ++ .object ([] ++ (fields ++ [])) :: (items ++ after) := by
          simpa using hl
        exact keeps_extractFields hp he hk hl' (ends_extractItems_start hw) hP hx
      rw [extractItems] at h
      rcases Run.ends_bind.mp h with ⟨f, hfail, -⟩ | ⟨_, x, hx, hrest⟩
      · exact hfields hfail
      have hl' : call.script.list "bind" = (before ++ [.object fields]) ++ (items ++ after) := by
        simpa using hl
      refine ih hl' ?_ (hfields hx) hrest
      rw [extractItems_append]
      refine Run.ends_bind.mpr (.inr ⟨(), w, hw, Run.ends_bind.mpr (.inr ⟨(), x, hx, ?_⟩)⟩)
      exact Run.ends_pure.mpr ⟨rfl, rfl⟩
    | _ =>
      obtain ⟨-, rfl⟩ := Run.ends_throw.mp h
      exact hP

theorem keeps_exchange (hs : ∀ u, P u → ∀ request, P (u.sending host request)) (hu : P u)
    {answered : Except Fault CallContext} (h : (exchange host m).Ends u answered v) : P v := by
  rcases ends_exchange u.plugins.confined_true h with ⟨rfl, -⟩ | ⟨request, rfl, -⟩
  · exact hu
  · exact hs u hu request

/-- What holds when a run begins, and is kept by sending and by each binding that the run comes to,
holds at each of its moments. -/
theorem Visits.rule (hs : P s) (hsend : ∀ u, P u → ∀ request, P (u.sending host request))
    (hk : BindingsKeep P host script s) (h : Visits host script s t) : P t := by
  have hcomes : ∀ {b x}, Comes host script s b x → P x := by
    intro b x hc
    cases hc with
    | bindVariables => exact hs
    | @extractor m call before after fields rest key spec plugin u v w hm hb hc hf he hl hw _ =>
      have hp : Proceeds script s m u := ⟨hm, hb, hc, hf⟩
      have hv : P v := keeps_exchange hsend (keeps_bindEnv hm hk hs hb) he
      rcases Run.ends_bind.mp hw with ⟨f, -, hf⟩ | ⟨_, y, hitems, hfields⟩
      · cases hf
      have hy : P y := keeps_extractItems hp he hk (hl.trans (List.nil_append _).symm)
        (ends_extractItems_nil call v) hv hitems
      exact keeps_extractFields hp he hk hl (ends_extractItems_start hitems) hy hfields
  cases h with
  | start => exact hs
  | binding hc hv => exact hk _ _ hc (hcomes hc) _ hv
  | bound hm hb => exact keeps_bindEnv hm hk hs hb
  | sent hp he => exact keeps_exchange hsend (keeps_bindEnv hp.completed hk hs hp.bound) he
  | @extracted _ call _ _ v _ hp he hx =>
    have hv := keeps_exchange hsend (keeps_bindEnv hp.completed hk hs hp.bound) he
    have hl : call.script.list "bind" = [] ++ (call.script.list "bind" ++ []) := by simp
    exact keeps_extractItems hp he hk hl (ends_extractItems_nil call v) hv hx

end ApiScript.Execution
