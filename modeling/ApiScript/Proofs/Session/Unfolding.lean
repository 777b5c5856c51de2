import ApiScript.Proofs.Session.Course
import ApiScript.Proofs.Session.Entrances
import ApiScript.Proofs.Session.Flattening
import ApiScript.Proofs.Source.Reading
import Mathlib.Data.Set.Finite.Lattice

/-! # What redirects lead to

Documents unfold when each redirect among them gives way to the documents of its source, and so on
in these. Where redirects do not go round this comes to an end, and so does every task: it runs at
most the scripts of the unfolding. A script that is run by its name never leads any further.
-/

namespace ApiScript

open Relation

variable {host : Host} {documents loaded leaves more : List Json} {document : Json}
  {source locator text : String} {s : Session} {pending : Bool}

/-! ## Unfolding -/

def Host.documentsOf (host : Host) (locator : String) : List Json :=
  match host.read locator with
  | .ok documents => documents
  | .error _ => []

/-- The redirects among documents, at any depth, are written without references. -/
def Plain (documents : List Json) : Prop :=
  ∀ locator, redirectTo locator ∈ flatDocuments documents → '{' ∉ locator.toList

def Host.Leads (host : Host) (locator next : String) : Prop :=
  redirectTo next ∈ flatDocuments (host.documentsOf locator)

/-- Documents unfold to those that are neither lists nor redirects. A redirect with references in it
does not unfold, as it depends on variables where it leads. -/
inductive Host.Unfolds (host : Host) : List Json → List Json → Prop where
  | nil : Unfolds host [] []
  | list {items rest leaves more : List Json} : Unfolds host items leaves →
      Unfolds host rest more → Unfolds host (.array items :: rest) (leaves ++ more)
  | redirect {document : Json} {locator : String} {rest leaves more : List Json} :
      document = redirectTo locator → '{' ∉ locator.toList →
      Unfolds host (host.documentsOf locator) leaves → Unfolds host rest more →
      Unfolds host (document :: rest) (leaves ++ more)
  | leaf {document : Json} {rest more : List Json} : (∀ items, document ≠ .array items) →
      (∀ locator, document ≠ redirectTo locator) → Unfolds host rest more →
      Unfolds host (document :: rest) (document :: more)

theorem redirectTo_injective : Function.Injective redirectTo := by
  intro a b h
  simpa [redirectTo, ← String.toList_inj] using h

theorem Host.Unfolds.append {rest : List Json} (h : host.Unfolds documents leaves)
    (hr : host.Unfolds rest more) : host.Unfolds (documents ++ rest) (leaves ++ more) := by
  induction h with
  | nil => exact hr
  | list hi _ _ ih =>
    rw [List.append_assoc]
    exact .list hi ih
  | redirect hd hb hl _ _ ih =>
    rw [List.append_assoc]
    exact .redirect hd hb hl ih
  | leaf ha hd _ ih => exact .leaf ha hd ih

theorem Host.Unfolds.unique (h : host.Unfolds documents leaves)
    (h' : host.Unfolds documents more) : leaves = more := by
  induction h generalizing more with
  | nil =>
    cases h' with
    | nil => rfl
  | list _ _ ih ihr =>
    cases h' with
    | list hi hr => rw [ih hi, ihr hr]
    | redirect hd => cases hd
    | leaf ha => exact (ha _ rfl).elim
  | redirect hd _ _ _ ih ihr =>
    subst hd
    cases h' with
    | redirect hd _ hl hr =>
      obtain rfl := redirectTo_injective hd
      rw [ih hl, ihr hr]
    | leaf _ hd => exact (hd _ rfl).elim
  | leaf ha hd _ ihr =>
    cases h' with
    | list => exact (ha _ rfl).elim
    | redirect hd' => exact (hd _ hd').elim
    | leaf _ _ hr => rw [ihr hr]

/-! ## Where redirects end -/

theorem finite_leads (hf : (Set.range host.documentsOf).Finite) :
    {next | ∃ locator, host.Leads locator next}.Finite := by
  have hu : {next | ∃ locator, host.Leads locator next} =
      ⋃ documents ∈ Set.range host.documentsOf,
        Set.preimage redirectTo {document | document ∈ flatDocuments documents} := by
    ext next
    simp [Host.Leads]
  rw [hu]
  exact hf.biUnion fun documents _ =>
    (List.finite_toSet _).preimage redirectTo_injective.injOn

theorem documentsOf_of_file {tree : Files.Tree} {path text : String} {v : Json}
    (h : host.read = Source.read (Files.ofTree tree)) (hl : Locator.ofText source = .localPath path)
    (hf : Files.ofTree tree path = .ok text.toUTF8)
    (hv : Source.parse (Locator.isYamlPath path) text = .ok v) :
    host.documentsOf source = Source.documents v := by
  rw [Host.documentsOf, h, Source.read_of_toUTF8 hl hf hv]

theorem documentsOf_mem {tree : Files.Tree} (h : host.read = Source.read (Files.ofTree tree))
    (source : String) : host.documentsOf source ∈ [] :: Source.held tree := by
  unfold Host.documentsOf
  rw [h]
  cases hr : Source.read (Files.ofTree tree) source with
  | error causes => exact List.mem_cons_self
  | ok loaded => exact List.mem_cons_of_mem _ (Source.mem_held hr)

theorem finite_documentsOf {tree : Files.Tree}
    (h : host.read = Source.read (Files.ofTree tree)) : (Set.range host.documentsOf).Finite :=
  ([] :: Source.held tree).finite_toSet.subset (Set.range_subset_iff.mpr (documentsOf_mem h))

/-- Redirects among finitely many sources that do not go round come to an end. -/
theorem wellFounded_leads (hf : (Set.range host.documentsOf).Finite)
    (ha : ∀ locator, ¬ TransGen host.Leads locator locator) :
    WellFounded fun next locator => host.Leads locator next := by
  let Target := {next // ∃ locator, host.Leads locator next}
  have : Finite Target := finite_leads hf
  let after : Target → Target → Prop := fun b a => TransGen host.Leads a b
  have : IsTrans Target after := ⟨fun _ _ _ hab hbc => hbc.trans hab⟩
  have : Std.Irrefl after := ⟨fun a h => ha a h⟩
  have hwf : WellFounded after := Finite.wellFounded_of_trans_of_irrefl _
  have htarget : ∀ t : Target, Acc (fun next locator => host.Leads locator next) t.1 := by
    intro t
    induction t using hwf.induction with
    | _ t ih => exact .intro _ fun next h => ih ⟨next, t.1, h⟩ (.single h)
  exact ⟨fun locator => .intro _ fun next h => htarget ⟨next, locator, h⟩⟩

def Host.Ends (host : Host) (locator : String) : Prop :=
  '{' ∉ locator.toList ∧ ∃ leaves, host.Unfolds (host.documentsOf locator) leaves

theorem exists_unfolds_leaf {rest : List Json} (ha : ∀ items, document ≠ .array items)
    (hr : ∀ locator, document = redirectTo locator → host.Ends locator)
    (hm : host.Unfolds rest more) : ∃ leaves, host.Unfolds (document :: rest) leaves := by
  by_cases hd : ∃ locator, document = redirectTo locator
  · obtain ⟨locator, hd⟩ := hd
    obtain ⟨hb, leaves, hl⟩ := hr locator hd
    exact ⟨_, .redirect hd hb hl hm⟩
  · exact ⟨_, .leaf ha (not_exists.mp hd) hm⟩

mutual

theorem exists_unfolds_cons : ∀ document {rest leaves},
    (∀ locator, redirectTo locator ∈ flatDocument document → host.Ends locator) →
      host.Unfolds rest leaves → ∃ all, host.Unfolds (document :: rest) all
  | .array items, _, _, hr, hm => by
    obtain ⟨first, hl⟩ := exists_unfolds items (by simpa [flatDocument] using hr)
    exact ⟨_, .list hl hm⟩
  | .null, _, _, hr, hm | .bool _, _, _, hr, hm | .number _, _, _, hr, hm
  | .string _, _, _, hr, hm | .object _, _, _, hr, hm =>
    exists_unfolds_leaf (by simp) (fun locator hd => hr locator (by simp [flatDocument, hd])) hm

theorem exists_unfolds : ∀ documents,
    (∀ locator, redirectTo locator ∈ flatDocuments documents → host.Ends locator) →
      ∃ leaves, host.Unfolds documents leaves
  | [], _ => ⟨_, .nil⟩
  | document :: rest, hr => by
    simp only [flatDocuments, List.mem_append] at hr
    obtain ⟨leaves, hm⟩ := exists_unfolds rest fun locator hl => hr locator (.inr hl)
    exact exists_unfolds_cons document (fun locator hl => hr locator (.inl hl)) hm

end

theorem unfolds_of_acyclic (hf : (Set.range host.documentsOf).Finite)
    (ha : ∀ locator, ¬ TransGen host.Leads locator locator)
    (hp : ∀ locator, Plain (host.documentsOf locator)) (h : Plain documents) :
    ∃ leaves, host.Unfolds documents leaves := by
  have hsource : ∀ locator, ∃ leaves, host.Unfolds (host.documentsOf locator) leaves := by
    intro locator
    induction locator using (wellFounded_leads hf ha).induction with
    | _ locator ih =>
      exact exists_unfolds _ fun next hn => ⟨hp locator next hn, ih next hn⟩
  exact exists_unfolds _ fun locator hl => ⟨h locator hl, hsource locator⟩

/-! ## The scripts that are run -/

/-- A script is run for a document: the script that it is, or the one that it names. -/
inductive Deed.RunsFor : Deed → Json → Prop where
  | script {fields : Fields Json} {script : Script} {pending : Bool} {before after : Session}
      {result : Except Fault Unit} : Script.ofFields fields = .ok script →
      RunsFor (.run pending script before result after) (.object fields)
  | name {text : String} {script : Script} {pending : Bool} {before after : Session}
      {result : Except Fault Unit} : before.registry.script? text = some script →
      RunsFor (.run pending script before result after) (.string text)

def Deed.isRun : Deed → Bool
  | .read _ => false
  | .run .. => true

def isScriptDocument : Json → Bool
  | .object _ | .string _ => true
  | _ => false

namespace Course

variable {c : Course} {redirect : Bool → String → Session → Course}

def runs (c : Course) : List Deed := c.deeds.filter Deed.isRun

/-- A course ends, and each script is run for another one of some documents, in order. -/
structure EndsAmong (leaves : List Json) (c : Course) : Prop where
  ends : c.ending ≠ none
  runs : ∃ used, used.Sublist leaves ∧ List.Forall₂ Deed.RunsFor c.runs used

theorem endsAmong_idle (result : Except Fault Unit) (s : Session) :
    EndsAmong leaves (idle result s) :=
  ⟨by simp [idle], [], leaves.nil_sublist, .nil⟩

theorem endsAmong_runScript {script : Script} (h : ∀ result after,
      Deed.RunsFor (.run pending script s result after) document) :
    EndsAmong [document] (runScript host pending script s) := by
  obtain ⟨result, t, hr⟩ : ∃ result t, (ApiScript.runScript host script).Ends s result t :=
    ⟨_, _, rfl⟩
  rw [runScript_of_ends hr]
  exact ⟨by simp, [document], .refl _, .cons (h result t) .nil⟩

theorem EndsAmong.mono (h : EndsAmong leaves c) (hl : leaves.Sublist more) : EndsAmong more c := by
  obtain ⟨used, hu, hr⟩ := h.runs
  exact ⟨h.ends, used, hu.trans hl, hr⟩

theorem EndsAmong.andThen {next : Session → Course} (h : EndsAmong leaves c)
    (hn : ∀ t, EndsAmong more (next t)) : EndsAmong (leaves ++ more) (c.andThen next) := by
  by_cases hok : ∃ t, c.ending = some (.ok (), t)
  · obtain ⟨t, ht⟩ := hok
    rw [andThen_of_ok ht]
    obtain ⟨used, hu, hr⟩ := h.runs
    obtain ⟨used', hu', hr'⟩ := (hn t).runs
    refine ⟨(hn t).ends, used ++ used', hu.append hu', ?_⟩
    simpa [Course.runs] using List.rel_append hr hr'
  · rw [andThen_of_not_ok fun t ht => hok ⟨t, ht⟩]
    exact h.mono (List.sublist_append_left _ _)

theorem EndsAmong.inTurn {first rest : Session → Course} (h : ∀ s, EndsAmong leaves (first s))
    (hr : ∀ s, EndsAmong more (rest s)) (s : Session) :
    EndsAmong (leaves ++ more) (inTurn first rest s) := by
  unfold Course.inTurn
  split
  · exact endsAmong_idle _ _
  · exact (h s).andThen hr

theorem EndsAmong.read (h : EndsAmong leaves c) (locator : String) :
    EndsAmong leaves ⟨.read locator :: c.deeds, c.ending⟩ :=
  ⟨h.ends, h.runs⟩

theorem endsAmong_resolveSource (h : EndsAmong leaves
      (resolveAll host redirect pending (host.documentsOf source) s)) :
    EndsAmong leaves (resolveSource host redirect pending source s) := by
  unfold Host.documentsOf at h
  unfold resolveSource Resolution.read
  cases hr : host.read source with
  | error causes => exact ((endsAmong_idle _ s).mono leaves.nil_sublist).read source
  | ok loaded =>
    rw [hr] at h
    exact h.read source

theorem not_at (h : ∀ locator, Json.string text ≠ redirectTo locator) (rest : List Char) :
    text.toList ≠ '@' :: rest := by
  intro ht
  refine h (String.ofList rest) (congrArg Json.string ?_)
  simp [← String.toList_inj, ht]

theorem endsAmong_resolveScript (fields : Fields Json) :
    EndsAmong [.object fields] (resolveScript host pending fields s) := by
  unfold resolveScript
  cases hs : Script.ofFields fields with
  | error f => exact endsAmong_idle _ _
  | ok script =>
    have hrun : ∀ u, EndsAmong [.object fields] (runScript host pending script u) := fun u =>
      endsAmong_runScript fun _ _ => .script hs
    dsimp only
    cases script.name with
    | none => exact hrun s
    | some name =>
      dsimp only
      split
      · exact endsAmong_idle _ _
      · exact hrun _

theorem endsAmong_resolve (ha : ∀ items, document ≠ .array items)
    (hr : ∀ locator, document ≠ redirectTo locator) (pending : Bool) (s : Session) :
    EndsAmong [document] (resolve host redirect pending document s) := by
  cases document with
  | string text =>
    rw [resolve, resolveText_of_name (not_at hr)]
    cases hs : s.registry.script? text with
    | none => exact endsAmong_idle _ _
    | some script => exact endsAmong_runScript fun _ _ => .name hs
  | array items => exact (ha items rfl).elim
  | object fields =>
    rw [resolve]
    exact endsAmong_resolveScript fields
  | null | bool | number =>
    simp only [resolve]
    exact endsAmong_idle _ _

end Course

open Course in
/-- Documents that unfold are resolved at some depth, whatever the session and the transport. -/
theorem Host.Unfolds.endsAmong (h : host.Unfolds documents leaves) : ∃ depth,
    ∀ deeper ≥ depth, ∀ transport pending s, EndsAmong leaves (resolveAll { host with transport }
      (follow { host with transport } deeper) pending documents s) := by
  induction h with
  | nil =>
    refine ⟨0, fun deeper _ transport pending s => ?_⟩
    rw [resolveAll]
    exact endsAmong_idle _ _
  | list _ _ ih ihr =>
    obtain ⟨depth, hd⟩ := ih
    obtain ⟨depth', hd'⟩ := ihr
    refine ⟨max depth depth', fun deeper hdeeper transport pending s => ?_⟩
    rw [resolveAll]
    refine .inTurn (fun s => ?_) (hd' deeper (le_of_max_le_right hdeeper) transport pending) s
    rw [resolve]
    exact hd deeper (le_of_max_le_left hdeeper) transport _ s
  | @redirect _ locator _ _ _ hdoc hb _ _ ih ihr =>
    obtain ⟨depth, hd⟩ := ih
    obtain ⟨depth', hd'⟩ := ihr
    refine ⟨max (depth + 1) depth', fun deeper hdeeper transport pending s => ?_⟩
    rw [resolveAll]
    refine .inTurn (fun s => ?_) (hd' deeper (le_of_max_le_right hdeeper) transport pending) s
    obtain ⟨deep, rfl⟩ : ∃ deep, deeper = deep + 1 := Nat.exists_eq_add_one.mpr (by omega)
    have ht : ("@" ++ locator).toList = '@' :: locator.toList := by simp
    rw [hdoc, redirectTo, resolve, resolveText_of_at ht, String.ofList_toList, follow,
      Environment.expand_of_notMem _ hb]
    exact endsAmong_resolveSource (hd deep (by omega) transport _ s)
  | leaf ha hr _ ih =>
    obtain ⟨depth, hd⟩ := ih
    refine ⟨depth, fun deeper hdeeper transport pending s => ?_⟩
    rw [resolveAll]
    exact .inTurn (endsAmong_resolve ha hr _) (hd deeper hdeeper transport pending) s

open Course in
theorem exists_endsAmong_resolveSources (hs : ∀ source, ∃ leaves,
      host.Unfolds (host.documentsOf source) leaves) (sources : List String) :
    ∃ leaves, host.Unfolds (sources.flatMap host.documentsOf) leaves ∧ ∃ depth,
      ∀ deeper ≥ depth, ∀ transport pending s, EndsAmong leaves (resolveSources
        { host with transport } (follow { host with transport } deeper) pending sources s) := by
  induction sources with
  | nil => exact ⟨[], .nil, 0, fun _ _ _ _ s => endsAmong_idle _ s⟩
  | cons source rest ih =>
    obtain ⟨leaves, hl⟩ := hs source
    obtain ⟨depth, hd⟩ := hl.endsAmong
    obtain ⟨more, hm, depth', hd'⟩ := ih
    refine ⟨leaves ++ more, hl.append hm, max depth depth', ?_⟩
    intro deeper hdeeper transport pending s
    refine .inTurn (fun s => ?_) (hd' deeper (le_of_max_le_right hdeeper) transport pending) s
    exact endsAmong_resolveSource (hd deeper (le_of_max_le_left hdeeper) transport _ s)

/-! ## Tasks -/

theorem isScriptDocument_of_runsFor {deeds : List Deed} {used : List Json}
    (h : List.Forall₂ Deed.RunsFor deeds used) : ∀ document ∈ used, isScriptDocument document := by
  induction h with
  | nil => exact fun _ h => nomatch h
  | cons hd _ ih =>
    refine List.forall_mem_cons.mpr ⟨?_, ih⟩
    cases hd <;> rfl

theorem Course.EndsAmong.length_runs_le {c : Course} (h : c.EndsAmong leaves) :
    c.runs.length ≤ leaves.countP isScriptDocument := by
  obtain ⟨used, hu, hr⟩ := h.runs
  calc c.runs.length = used.length := hr.length_eq
    _ = used.countP isScriptDocument :=
      (List.countP_eq_length.mpr (isScriptDocument_of_runsFor hr)).symm
    _ ≤ leaves.countP isScriptDocument := hu.countP_le

namespace Task

def given (host : Host) : Task → List Json
  | .script _ => []
  | .document d => [d]
  | .documents ds | .execute ds => ds
  | .executeSource source => host.documentsOf source
  | .executeSources sources => sources.flatMap host.documentsOf

open Course in
theorem exists_endsAmong {task : Task} (ht : task.isExecution = true)
    (hs : ∀ source, ∃ leaves, host.Unfolds (host.documentsOf source) leaves)
    (hg : host.Unfolds (task.given host) leaves) : ∃ depth, ∀ deeper ≥ depth, ∀ transport s,
      EndsAmong leaves (task.course { host with transport } deeper s) := by
  cases task with
  | script | document | documents => cases ht
  | execute documents =>
    obtain ⟨depth, hd⟩ := hg.endsAmong
    exact ⟨depth, fun deeper hdeeper transport s => hd deeper hdeeper transport false _⟩
  | executeSource source =>
    obtain ⟨depth, hd⟩ := hg.endsAmong
    exact ⟨depth, fun deeper hdeeper transport s =>
      endsAmong_resolveSource (hd deeper hdeeper transport false _)⟩
  | executeSources sources =>
    obtain ⟨more, hm, depth, hd⟩ := exists_endsAmong_resolveSources hs sources
    obtain rfl := hg.unique hm
    exact ⟨depth, fun deeper hdeeper transport s => hd deeper hdeeper transport false _⟩

theorem ends_of_name (hn : ∀ locator, Json.string text ≠ redirectTo locator) (host : Host)
    (s : Session) : ∃ result t, ((Task.document (.string text)).run host 0).Ends s result t ∧
      ((Task.document (.string text)).course host 0 s).deeds =
        match s.registry.script? text with
        | none => []
        | some kept => [.run false kept s result t] := by
  have hc : (Task.document (.string text)).course host 0 s =
      match s.registry.script? text with
      | none => Course.idle (.error (.noSuchScript text)) s
      | some kept => Course.runScript host false kept s := by
    change Course.resolve host _ false (.string text) s = _
    rw [Course.resolve, Course.resolveText_of_name (Course.not_at hn)]
    cases s.registry.script? text <;> rfl
  have he := (Task.document (.string text)).ending_course host 0 s
  rw [hc] at he ⊢
  cases hs : s.registry.script? text with
  | none =>
    rw [hs] at he
    exact ⟨_, s, he.symm, rfl⟩
  | some kept =>
    obtain ⟨result, t, hr⟩ : ∃ result t, (runScript host kept).Ends s result t := ⟨_, _, rfl⟩
    rw [hs] at he
    dsimp only at he ⊢
    rw [Course.runScript_of_ends hr] at he ⊢
    exact ⟨result, t, he.symm, rfl⟩

/-- Where redirects among finitely many sources are plain and do not go round, a task whose own
redirects are plain ends, at a depth for all sessions and transports. The documents that it begins
with unfold in one way, and of these it runs some in order, each once, and no other script. The name
of a script leads no further: at most the script that is kept under it then is run, and nothing is
read. -/
theorem ends_of_acyclic (hf : (Set.range host.documentsOf).Finite)
    (hp : ∀ source, Plain (host.documentsOf source))
    (ha : ∀ source, ¬ TransGen host.Leads source source) :
    (∀ task : Task, task.isExecution = true → Plain (task.given host) → ∃ leaves,
      host.Unfolds (task.given host) leaves ∧
      (∀ other, host.Unfolds (task.given host) other → other = leaves) ∧
      ∃ depth, ∀ deeper ≥ depth, ∀ transport (s : Session),
        (∃ result t, (task.run { host with transport } deeper).Ends s result t) ∧
        (task.course { host with transport } deeper s).EndsAmong leaves ∧
        (task.course { host with transport } deeper s).runs.length ≤
          leaves.countP isScriptDocument) ∧
    ∀ text, (∀ locator, Json.string text ≠ redirectTo locator) → ∀ s : Session, ∃ result t,
      ((Task.document (.string text)).run host 0).Ends s result t ∧
      ((Task.document (.string text)).course host 0 s).deeds =
        match s.registry.script? text with
        | none => []
        | some kept => [.run false kept s result t] := by
  refine ⟨fun task ht hg => ?_, fun text hn s => ?_⟩
  · have hs : ∀ source, ∃ leaves, host.Unfolds (host.documentsOf source) leaves :=
      fun source => unfolds_of_acyclic hf ha hp (hp source)
    obtain ⟨leaves, hl⟩ := unfolds_of_acyclic hf ha hp hg
    obtain ⟨depth, hd⟩ := exists_endsAmong ht hs hl
    refine ⟨leaves, hl, fun other ho => ho.unique hl, depth, fun deeper hdeeper transport s => ?_⟩
    have hc := hd deeper hdeeper transport s
    obtain ⟨⟨result, t⟩, he⟩ := Option.ne_none_iff_exists'.mp hc.ends
    exact ⟨⟨result, t, (task.ending_course _ deeper s).symm.trans he⟩, hc, hc.length_runs_le⟩
  · exact ends_of_name hn host s

theorem ends_of_acyclic_files :
    let tree : Files.Tree := [(["a"], "\"@b\"".toUTF8), (["b"], "\"x\"".toUTF8)]
    let host : Host := ⟨Host.unreachable, Source.read (Files.ofTree tree)⟩
    let task := Task.execute [.object [("name", .string "x")], redirectTo "a", .string "x"]
    (Set.range host.documentsOf).Finite ∧ (∀ source, Plain (host.documentsOf source)) ∧
      (∀ source, ¬ TransGen host.Leads source source) ∧ Plain (task.given host) ∧
      ∃ depth, ∀ deeper ≥ depth, ∀ transport (s : Session),
        (∃ result t, (task.run { host with transport } deeper).Ends s result t) ∧
        (task.course { host with transport } deeper s).runs.length ≤ 3 := by
  intro tree host task
  have hf : (Set.range host.documentsOf).Finite := finite_documentsOf rfl
  have ha : host.documentsOf "a" = [redirectTo "b"] := by
    have hfile : Files.ofTree tree "a" = .ok "\"@b\"".toUTF8 :=
      Files.ofTree_of_notMem (by decide) (by decide) (by decide) (by decide)
    have hparse : Source.parse (Locator.isYamlPath "a") "\"@b\"" = .ok (.string "@b") := rfl
    exact documentsOf_of_file rfl rfl hfile hparse
  have hb : host.documentsOf "b" = [.string "x"] := by
    have hfile : Files.ofTree tree "b" = .ok "\"x\"".toUTF8 :=
      Files.ofTree_of_notMem (by decide) (by decide) (by decide) (by decide)
    have hparse : Source.parse (Locator.isYamlPath "b") "\"x\"" = .ok (.string "x") := rfl
    exact documentsOf_of_file rfl rfl hfile hparse
  have hheld : Source.held tree =
      [[redirectTo "b"], [redirectTo "b"], [.string "x"], [.string "x"]] := rfl
  have hx : ∀ locator, Json.string "x" ≠ redirectTo locator := by
    intro locator h
    have ht : 'x' :: [] = '@' :: locator.toList := by
      simpa using congrArg String.toList (Json.string.inj h)
    cases ht
  have hleads : ∀ {source next}, host.Leads source next → next = "b" ∧ source ≠ "b" := by
    intro source next h
    have hm := documentsOf_mem (rfl : host.read = Source.read (Files.ofTree tree)) source
    rw [hheld] at hm
    simp only [List.mem_cons, List.not_mem_nil, or_false, or_self, or_self_left] at hm
    unfold Host.Leads at h
    rcases hm with hs | hs | hs
    · simp [hs, flatDocuments] at h
    · have hn : redirectTo next = redirectTo "b" := by
        simpa [hs, flatDocuments, flatDocument, redirectTo] using h
      refine ⟨redirectTo_injective hn, ?_⟩
      rintro rfl
      simp [hb, redirectTo] at hs
    · have hn : redirectTo next = .string "x" := by
        simpa [hs, flatDocuments, flatDocument] using h
      exact absurd hn.symm (hx next)
  have hp : ∀ source, Plain (host.documentsOf source) := by
    intro source next h
    rw [(hleads h).1]
    decide
  have hacyclic : ∀ source, ¬ TransGen host.Leads source source := by
    intro source h
    obtain ⟨_, hfirst, -⟩ := TransGen.head'_iff.mp h
    obtain ⟨_, -, hlast⟩ := TransGen.tail'_iff.mp h
    exact (hleads hfirst).2 (hleads hlast).1
  have hg : Plain (task.given host) := by
    intro next h
    have hn : redirectTo next = redirectTo "a" ∨ redirectTo next = .string "x" := by
      simpa only [task, given, flatDocuments, flatDocument, redirectTo, List.singleton_append,
        List.append_nil, List.mem_cons, List.not_mem_nil, or_false, reduceCtorEq, false_or] using h
    rw [redirectTo_injective (hn.resolve_right fun h => hx next h.symm)]
    decide
  have hname : host.Unfolds [.string "x"] [.string "x"] := .leaf (fun _ h => by cases h) hx .nil
  have hsecond : host.Unfolds (host.documentsOf "b") [.string "x"] := hb ▸ hname
  have hfirst : host.Unfolds (host.documentsOf "a") [.string "x"] := by
    rw [ha]
    exact .redirect rfl (by decide) hsecond .nil
  have hu : host.Unfolds (task.given host)
      [.object [("name", .string "x")], .string "x", .string "x"] :=
    .leaf (fun _ h => by cases h) (fun _ h => by cases h)
      (.redirect rfl (by decide) hfirst hname)
  refine ⟨hf, hp, hacyclic, hg, ?_⟩
  obtain ⟨hall, -⟩ := ends_of_acyclic hf hp hacyclic
  obtain ⟨leaves, hl, -, depth, hd⟩ := hall task rfl hg
  obtain rfl := hu.unique hl
  exact ⟨depth, fun deeper hdeeper transport s =>
    ⟨(hd deeper hdeeper transport s).1, (hd deeper hdeeper transport s).2.2⟩⟩

end Task

end ApiScript
