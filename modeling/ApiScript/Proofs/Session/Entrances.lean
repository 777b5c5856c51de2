import ApiScript.Proofs.Expansion.Basic
import ApiScript.Proofs.Session.Changes
import ApiScript.Proofs.Session.Depth

/-! # Ways to run the same documents

Documents are run when they are given, when a source that holds them is, and when a redirect leads
to such a source. Each way clears the flag, looks at it and loads in an order of its own, and all
come to the same.
-/

namespace ApiScript

variable {host : Host} {s t : Session} {result : Except Fault Unit} {source text : String}
  {loaded : List Json} {depth : Nat}

def redirectTo (source : String) : Json := .string ("@" ++ source)

namespace Resolution

variable {redirect : Redirect}

theorem ends_resolve_redirectTo : (resolve host redirect (redirectTo text)).Ends s result t ↔
    (redirect text).Ends s result t := by
  have ht : ("@" ++ text).toList = '@' :: text.toList := by simp
  rw [redirectTo, resolve, resolveText_of_at ht, String.ofList_toList]

theorem ends_follow_succ : (follow host (depth + 1) text).Ends s result t ↔
    (resolveSource host (follow host depth) (s.env.expand text)).Ends s result t :=
  ends_get_bind

theorem ends_resolve_follow : (resolve host (follow host (depth + 1)) (redirectTo text)).Ends
      s result t ↔
    (resolveSource host (follow host depth) (s.env.expand text)).Ends s result t :=
  ends_resolve_redirectTo.trans ends_follow_succ

theorem resolveSource_within_redirectTo (h : '{' ∉ source.toList) :
    (resolveSource host (follow host depth) source).Within
      (resolve host (follow host (depth + 1)) (redirectTo source)) := by
  intro s result t hs
  rwa [ends_resolve_follow, Environment.expand_of_notMem _ h]

theorem redirectTo_within_resolveSource (h : '{' ∉ source.toList) :
    (resolve host (follow host depth) (redirectTo source)).Within
      (resolveSource host (follow host depth) source) := by
  intro s result t hs
  cases depth with
  | zero => exact (not_ends_unending (ends_resolve_redirectTo.mp hs)).elim
  | succ depth =>
    rw [ends_resolve_follow, Environment.expand_of_notMem _ h] at hs
    exact resolveSource_within (fun text => follow_within_succ depth text) source _ _ _ hs

/-- Sources in turn and redirects to them in turn look at the flag alike, whatever happens before
each. -/
theorem resolveSources_within_redirects {sources : List String}
    (h : ∀ source ∈ sources, '{' ∉ source.toList) :
    (resolveSources host (follow host depth) sources).Within
      (resolveAll host (follow host (depth + 1)) (sources.map redirectTo)) := by
  induction sources with
  | nil =>
    rw [List.map_nil, resolveSources, resolveAll]
    exact .refl _
  | cons source rest ih =>
    obtain ⟨hsource, hrest⟩ := List.forall_mem_cons.mp h
    intro s result t hs
    rw [ends_resolveSources_cons] at hs
    rw [List.map_cons, ends_resolveAll_cons]
    exact Within.inTurn (resolveSource_within_redirectTo hsource) (ih hrest) hs

theorem redirects_within_resolveSources {sources : List String}
    (h : ∀ source ∈ sources, '{' ∉ source.toList) :
    (resolveAll host (follow host depth) (sources.map redirectTo)).Within
      (resolveSources host (follow host depth) sources) := by
  induction sources with
  | nil =>
    rw [List.map_nil, resolveSources, resolveAll]
    exact .refl _
  | cons source rest ih =>
    obtain ⟨hsource, hrest⟩ := List.forall_mem_cons.mp h
    intro s result t hs
    rw [List.map_cons, ends_resolveAll_cons] at hs
    rw [ends_resolveSources_cons]
    exact Within.inTurn (redirectTo_within_resolveSource hsource) (ih hrest) hs

theorem ends_resolveSources_single (h : s.isCancelled = false) :
    (resolveSources host redirect [source]).Ends s result t ↔
      (resolveSource host redirect source).Ends s result t := by
  rw [ends_resolveSources_cons, Session.observe_cancelled, h, if_neg Bool.false_ne_true,
    Session.observe_of_not_isCancelled h, resolveSources, bind_pure_unit]

theorem resolveSource_of_read (h : host.read source = .ok loaded) :
    resolveSource host redirect source = resolveAll host redirect loaded := by
  rw [resolveSource, read_eq_ok_iff.mpr h]

end Resolution

namespace Task

open Resolution

/-- In every session two tasks end with the same result in the same session, or neither ends. -/
def Coincides (host : Host) (a b : Task) : Prop :=
  ∀ s result t, a.Ends host s result t ↔ b.Ends host s result t

variable {a b c : Task}

theorem Coincides.trans (h : a.Coincides host b) (h' : b.Coincides host c) : a.Coincides host c :=
  fun s result t => (h s result t).trans (h' s result t)

theorem executeSources_coincides {sources : List String}
    (h : ∀ source ∈ sources, '{' ∉ source.toList) :
    (executeSources sources).Coincides host (execute (sources.map redirectTo)) := by
  intro s result t
  rw [ends_iff_body, ends_iff_body]
  constructor
  · rintro ⟨depth, hs⟩
    exact ⟨depth + 1, resolveSources_within_redirects h _ _ _ hs⟩
  · rintro ⟨depth, hs⟩
    exact ⟨depth, redirects_within_resolveSources h _ _ _ hs⟩

theorem executeSource_coincides (source : String) :
    (executeSource source).Coincides host (executeSources [source]) := by
  intro s result t
  rw [ends_iff_body, ends_iff_body]
  exact exists_congr fun depth =>
    (ends_resolveSources_single s.isCancelled_clearCancelled).symm

theorem executeSource_coincides_of_read (h : host.read source = .ok loaded) :
    (executeSource source).Coincides host (execute loaded) := by
  intro s result t
  rw [ends_iff_body, ends_iff_body]
  simp only [body, resolveSource_of_read h]
  exact Iff.rfl

theorem ends_executeSource_of_error {causes : List String} (h : host.read source = .error causes) :
    (executeSource source).Ends host s result t ↔
      result = .error (.load source causes) ∧ t = s.clearCancelled := by
  have hr : read host source = .error (.load source causes) := read_eq_error_iff.mpr ⟨_, h, rfl⟩
  rw [ends_iff_body]
  simp only [body, resolveSource, hr, ends_throw]
  exact exists_const Nat

theorem ends_redirectTo : (document (redirectTo text)).Ends host s result t ↔
    (∃ causes, host.read (s.env.expand text) = .error causes ∧
      result = .error (.load (s.env.expand text) causes) ∧ t = s) ∨
    ∃ loaded, host.read (s.env.expand text) = .ok loaded ∧
      (documents loaded).Ends host s result t := by
  have hb : (document (redirectTo text)).Ends host s result t ↔ ∃ depth,
      (resolveSource host (follow host depth) (s.env.expand text)).Ends s result t := by
    rw [ends_iff_body]
    constructor
    · rintro ⟨_ | depth, h⟩
      · exact (not_ends_unending (ends_resolve_redirectTo.mp h)).elim
      · exact ⟨depth, ends_resolve_follow.mp h⟩
    · rintro ⟨depth, h⟩
      exact ⟨depth + 1, ends_resolve_follow.mpr h⟩
  simp only [hb, ends_resolveSource, read_eq_ok_iff, read_eq_error_iff]
  constructor
  · rintro ⟨depth, ⟨f, ⟨causes, hr, rfl⟩, rfl, rfl⟩ | ⟨loaded, hr, h⟩⟩
    · exact .inl ⟨causes, hr, rfl, rfl⟩
    · exact .inr ⟨loaded, hr, depth, h⟩
  · rintro (⟨causes, hr, rfl, rfl⟩ | ⟨loaded, hr, depth, h⟩)
    · exact ⟨0, .inl ⟨_, ⟨causes, hr, rfl⟩, rfl, rfl⟩⟩
    · exact ⟨depth, .inr ⟨loaded, hr, h⟩⟩

/-- A source is run alike by itself, as the only one of several, by a redirect, and as the documents
that it holds: with the same result, and in the same session, with what has been sent and what the
listeners have been told. One that cannot be read is told of by its name, and nothing is run. So are
sources in turn and redirects to them in turn. A redirect among other documents, at any moment, is
the documents of the source that its expanded text names then. -/
theorem execute_coincides (host : Host) :
    (∀ source : String, '{' ∉ source.toList →
      (executeSource source).Coincides host (executeSources [source]) ∧
      (executeSource source).Coincides host (execute [redirectTo source]) ∧
      (∀ loaded, host.read source = .ok loaded →
        (executeSource source).Coincides host (execute loaded)) ∧
      ∀ causes, host.read source = .error causes →
        ∀ task ∈ [executeSource source, executeSources [source], execute [redirectTo source]],
          ∀ s result t, task.Ends host s result t ↔
            result = .error (.load source causes) ∧ t = s.clearCancelled) ∧
    (∀ sources : List String, (∀ source ∈ sources, '{' ∉ source.toList) →
      (executeSources sources).Coincides host (execute (sources.map redirectTo))) ∧
    ∀ text s result t, (document (redirectTo text)).Ends host s result t ↔
      (∃ causes, host.read (s.env.expand text) = .error causes ∧
        result = .error (.load (s.env.expand text) causes) ∧ t = s) ∨
      ∃ loaded, host.read (s.env.expand text) = .ok loaded ∧
        (documents loaded).Ends host s result t := by
  refine ⟨fun source hs => ?_, fun _ => executeSources_coincides, fun _ _ _ _ => ends_redirectTo⟩
  have hone : (executeSource source).Coincides host (executeSources [source]) :=
    executeSource_coincides source
  have hredirect : (executeSource source).Coincides host (execute [redirectTo source]) :=
    hone.trans (executeSources_coincides (List.forall_mem_singleton.mpr hs))
  refine ⟨hone, hredirect, fun _ => executeSource_coincides_of_read, fun causes hr task ht => ?_⟩
  intro s result t
  have herror : (executeSource source).Ends host s result t ↔
      result = .error (.load source causes) ∧ t = s.clearCancelled :=
    ends_executeSource_of_error hr
  simp only [List.mem_cons, List.not_mem_nil, or_false] at ht
  rcases ht with rfl | rfl | rfl
  · exact herror
  · exact (hone s result t).symm.trans herror
  · exact (hredirect s result t).symm.trans herror

theorem execute_coincides_unreadable :
    let loaded : List Json := [.object [("name", .string "x")]]
    let host : Host :=
      ⟨Host.unreachable, fun source => if source = "a" then .ok loaded else .error ["gone"]⟩
    ∃ s t, Session.start Environment.empty Settings.standard Plugins.standard = .ok s ∧
      (executeSource "a").Ends host s (.ok ()) t ∧ t.size = 1 ∧
      (execute [redirectTo "a"]).Ends host s (.ok ()) t ∧ (execute loaded).Ends host s (.ok ()) t ∧
      (executeSources ["a", "b"]).Coincides host (execute [redirectTo "a", redirectTo "b"]) ∧
      (execute [redirectTo "b"]).Ends host s (.error (.load "b" ["gone"])) s.clearCancelled := by
  intro loaded host
  obtain ⟨s, t, hs, ht, hsize⟩ : ∃ s t,
      Session.start Environment.empty Settings.standard Plugins.standard = .ok s ∧
      ((executeSource "a").run host 0).Ends s (.ok ()) t ∧ t.size = 1 := ⟨_, _, rfl, rfl, rfl⟩
  obtain ⟨hsource, hsources, -⟩ := execute_coincides host
  obtain ⟨-, hredirect, hloaded, -⟩ := hsource "a" (by decide)
  obtain ⟨-, -, -, herror⟩ := hsource "b" (by decide)
  refine ⟨s, t, hs, ⟨0, ht⟩, hsize, (hredirect _ _ _).mp ⟨0, ht⟩,
    (hloaded loaded rfl _ _ _).mp ⟨0, ht⟩, hsources ["a", "b"] (by decide), ?_⟩
  exact (herror ["gone"] rfl _ (by simp) _ _ _).mpr ⟨rfl, rfl⟩

end Task

end ApiScript
