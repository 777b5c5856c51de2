import ApiScript.Proofs.Plugin.Entries
import ApiScript.Proofs.Session.Reserved

/-! # Taking values entry by entry

The extractors that are given an object bind its names one after the other. What they take the
values from is there before the first of them; if it is not, nothing is bound. The first entry that
fails leaves those before it bound and ends the run.
-/

namespace ApiScript

open Binding

variable {s : Session} {call : CallContext} {fields : Fields Json} {env last : Environment}
  {name : String} {spec value : Json} {trouble : Trouble} {f : Fault}

namespace Extractor

/-- What the values of entries are taken from: a body, headers, or the variables themselves, by
expressions. -/
inductive Origin where
  | body (value : Json)
  | headers (response : Response)
  | expressions (engine : Engine)

namespace Origin

variable {origin : Origin}

def mismatch (name : String) (spec : Json) : Origin → Trouble
  | body _ =>
    Trouble.ofText s!"json extractor path for '{name}' must be a string, got {spec.render}"
  | headers _ => Trouble.ofText s!"header name for '{name}' must be a string, got {spec.render}"
  | expressions _ =>
    Trouble.ofText s!"expression for '{name}' must be a string, got {spec.render}"

/-- An entry asks for a value that is there. Paths and expressions are expanded, names of headers
are not. -/
inductive Gives : Origin → Environment → String → Json → Json → Prop where
  | path {body value : Json} {env : Environment} {name path : String} :
      body.at? (env.expand path) = some value → Gives (.body body) env name (.string path) value
  | header {response : Response} {env : Environment} {name header value : String} :
      response.header? header = some value →
      Gives (.headers response) env name (.string header) (.string value)
  | expression {engine : Engine} {env : Environment} {name text : String} {value : Json} :
      engine (env.expand text) env = .ok value →
      Gives (.expressions engine) env name (.string text) value

inductive Lacks : Origin → Environment → String → Json → Trouble → Prop where
  | path {body : Json} {env : Environment} {name path : String} :
      body.at? (env.expand path) = none →
      Lacks (.body body) env name (.string path)
        (Trouble.ofText s!"JSON path '{env.expand path}' not found in response")
  | header {response : Response} {env : Environment} {name header : String} :
      response.header? header = none →
      Lacks (.headers response) env name (.string header)
        (Trouble.ofText s!"Header '{header}' not found in response")
  | expression {engine : Engine} {env : Environment} {name text : String} {trouble : Trouble} :
      engine (env.expand text) env = .error trouble →
      Lacks (.expressions engine) env name (.string text)
        (trouble.explain s!"Failed to evaluate '{env.expand text}' for '{name}'")
  | mismatch {origin : Origin} {env : Environment} {name : String} {spec : Json} :
      (∀ text, spec ≠ .string text) → Lacks origin env name spec (origin.mismatch name spec)

def find : Origin → String → Json → Environment → Except Trouble Json
  | body value => valueAt value
  | headers response => headerValue response
  | expressions engine => expressionValue engine

theorem find_of_ne_string (h : ∀ text, spec ≠ .string text) :
    origin.find name spec env = .error (origin.mismatch name spec) := by
  cases origin <;> cases spec with
  | string text => exact (h text rfl).elim
  | _ => rfl

theorem Gives.find_eq (h : origin.Gives env name spec value) :
    origin.find name spec env = .ok value := by
  cases h with
  | path ha => rw [find, valueAt, ha]
  | header hr => rw [find, headerValue, hr]
  | expression he =>
    rw [find, expressionValue, he]
    rfl

theorem Lacks.find_eq (h : origin.Lacks env name spec trouble) :
    origin.find name spec env = .error trouble := by
  cases h with
  | path ha => rw [find, valueAt, ha]
  | header hr => rw [find, headerValue, hr]
  | expression he =>
    rw [find, expressionValue, he]
    rfl
  | mismatch hne => exact find_of_ne_string hne

theorem gives_or_lacks (origin : Origin) (env : Environment) (name : String) (spec : Json) :
    (∃ value, origin.Gives env name spec value) ∨
      ∃ trouble, origin.Lacks env name spec trouble := by
  by_cases hs : ∃ text, spec = .string text
  · obtain ⟨text, rfl⟩ := hs
    cases origin with
    | body value =>
      cases ha : value.at? (env.expand text) with
      | none => exact .inr ⟨_, .path ha⟩
      | some found => exact .inl ⟨_, .path ha⟩
    | headers response =>
      cases hr : response.header? text with
      | none => exact .inr ⟨_, .header hr⟩
      | some found => exact .inl ⟨_, .header hr⟩
    | expressions engine =>
      cases he : engine (env.expand text) env with
      | error trouble => exact .inr ⟨_, .expression he⟩
      | ok found => exact .inl ⟨_, .expression he⟩
  · exact .inr ⟨_, .mismatch (not_exists.mp hs)⟩

theorem finds (origin : Origin) : Finds origin.find origin.Gives origin.Lacks where
  ok_iff env name spec value := by
    refine ⟨fun h => ?_, Gives.find_eq⟩
    rcases gives_or_lacks origin env name spec with ⟨_, hg⟩ | ⟨_, hl⟩
    · cases hg.find_eq.symm.trans h
      exact hg
    · cases hl.find_eq.symm.trans h
  error_iff env name spec trouble := by
    refine ⟨fun h => ?_, Lacks.find_eq⟩
    rcases gives_or_lacks origin env name spec with ⟨_, hg⟩ | ⟨_, hl⟩
    · cases hg.find_eq.symm.trans h
    · cases hl.find_eq.symm.trans h
      exact hl

end Origin

/-- Entries are bound in turn. Each name has the value that its entry asks for among the variables
which those before it have bound, and no other name is touched. -/
structure Fills (origin : Origin) (fields : Fields Json) (env last : Environment) : Prop where
  inTurn : InTurn origin.Gives fields env last
  bound : ∀ before name spec after, fields = before ++ (name, spec) :: after → ∃ seen value,
    InTurn origin.Gives before env seen ∧ origin.Gives seen name spec value ∧
      last.get? name = some value
  others : ∀ name, name ∉ Fields.names fields → last.get? name = env.get? name

theorem fills_of_inTurn {origin : Origin} (h : InTurn origin.Gives fields env last)
    (ho : Fields.Ordered fields) : Fills origin fields env last where
  inTurn := h
  bound before name spec after hf := by
    subst hf
    exact h.exists_given ho.notMem_names_after
  others name hn := h.get?_of_notMem hn

/-- The extractors that can be given an object. Where none is named, the language of expressions is
that of the session. -/
inductive ByEntry where
  | json
  | headers
  | expressions (language : Option String)

namespace ByEntry

variable {kind : ByEntry} {origin : Origin}

def extractor (s : Session) : ByEntry → Extractor
  | json => Extractor.json
  | headers => Extractor.headers
  | expressions language =>
    match s.engine language with
    | .ok engine => ofEngine engine
    | .error f => fun _ _ => throw (Trouble.ofFault f)

/-- What an extractor takes the values from. -/
inductive Draws (s : Session) (call : CallContext) : ByEntry → Origin → Prop where
  | json {response : Response} {body : Json} : call.response = some response →
      response.json? = some body → Draws s call json (.body body)
  | headers {response : Response} : call.response = some response →
      Draws s call headers (.headers response)
  | expressions {language : Option String} {engine : Engine} :
      s.plugins.engines.get? (language.getD s.language) = some engine →
      Draws s call (expressions language) (.expressions engine)

inductive Refuses (s : Session) (call : CallContext) : ByEntry → Trouble → Prop where
  | json : call.response = none → Refuses s call json (Trouble.ofText
      s!"json extractor requires a response but script {call.script.label} made no request")
  | unparsed {response : Response} : call.response = some response → response.json? = none →
      Refuses s call json
        (Trouble.ofText s!"Failed to parse response of {call.script.label} as JSON")
  | headers : call.response = none → Refuses s call headers (Trouble.ofText
      s!"headers extractor requires a response but script {call.script.label} made no request")
  | expressions {language : Option String} :
      s.plugins.engines.get? (language.getD s.language) = none →
      Refuses s call (expressions language)
        (Trouble.ofFault (.unknownPlugin .engine (language.getD s.language)))

theorem requireResponse_of_some {response : Response} {who : String}
    (h : call.response = some response) : call.requireResponse who = .ok response := by
  rw [CallContext.requireResponse, h]

theorem requireResponse_of_none {who : String} (h : call.response = none) :
    call.requireResponse who = .error (Trouble.ofText
      s!"{who} requires a response but script {call.script.label} made no request") := by
  rw [CallContext.requireResponse, h]

theorem Draws.extractor_eq (h : kind.Draws s call origin) (fields : Fields Json) :
    kind.extractor s (.object fields) call = bindEach origin.find fields := by
  cases h with
  | json hr hj =>
    rw [extractor, Extractor.json, requireResponse_of_some hr, lift_ok_bind, hj]
    rfl
  | headers hr =>
    rw [extractor, Extractor.headers, requireResponse_of_some hr]
    rfl
  | expressions he =>
    rw [extractor, Session.engine, Plugins.engine, he]
    rfl

theorem Refuses.extractor_eq (h : kind.Refuses s call trouble) (spec : Json) :
    kind.extractor s spec call = throw trouble := by
  cases h with
  | json hr =>
    rw [extractor, Extractor.json, requireResponse_of_none hr]
    rfl
  | unparsed hr hj =>
    rw [extractor, Extractor.json, requireResponse_of_some hr, lift_ok_bind, hj]
  | headers hr =>
    rw [extractor, Extractor.headers, requireResponse_of_none hr]
    rfl
  | expressions he => rw [extractor, Session.engine, Plugins.engine, he]

theorem draws_or_refuses (kind : ByEntry) (s : Session) (call : CallContext) :
    (∃ origin, kind.Draws s call origin) ∨ ∃ trouble, kind.Refuses s call trouble := by
  cases kind with
  | json =>
    cases hr : call.response with
    | none => exact .inr ⟨_, .json hr⟩
    | some response =>
      cases hj : response.json? with
      | none => exact .inr ⟨_, .unparsed hr hj⟩
      | some body => exact .inl ⟨_, .json hr hj⟩
  | headers =>
    cases hr : call.response with
    | none => exact .inr ⟨_, .headers hr⟩
    | some response => exact .inl ⟨_, .headers hr⟩
  | expressions language =>
    cases he : s.plugins.engines.get? (language.getD s.language) with
    | none => exact .inr ⟨_, .expressions he⟩
    | some engine => exact .inl ⟨_, .expressions he⟩

/-- All entries are bound, or those before the first one that fails; none is when there is nothing
to take values from. -/
inductive Takes (s : Session) (call : CallContext) (kind : ByEntry) (fields : Fields Json) :
    Except Fault Unit → Environment → Prop where
  | refused {trouble : Trouble} : kind.Refuses s call trouble →
      Takes s call kind fields (.error (Fault.ofTrouble trouble)) s.env
  | all {origin : Origin} {last : Environment} : kind.Draws s call origin →
      Fills origin fields s.env last → Takes s call kind fields (.ok ()) last
  | upTo {origin : Origin} {before after : Fields Json} {name : String} {spec : Json}
      {trouble : Trouble} {last : Environment} : kind.Draws s call origin →
      fields = before ++ (name, spec) :: after → Fills origin before s.env last →
      Fails origin.Gives origin.Lacks last name spec trouble →
      Takes s call kind fields (.error (Fault.ofTrouble trouble)) last

theorem takes_of_run {result : Except Trouble Unit} {v : Variables} (ho : Fields.Ordered fields)
    (h : (kind.extractor s (.object fields) call).run.run s.vars = (result, v)) :
    Takes s call kind fields (settle result) v.env := by
  rcases draws_or_refuses kind s call with ⟨origin, hd⟩ | ⟨trouble, hr⟩
  · rw [hd.extractor_eq] at h
    have henters := origin.finds.enters fields s.vars
    rw [h] at henters
    cases henters with
    | all hall => exact .all hd (fills_of_inTurn hall ho)
    | upTo hf hbefore hfails =>
      have hb := ho.sublist (hf ▸ List.sublist_append_left _ _)
      exact .upTo hd hf (fills_of_inTurn hbefore hb) hfails
  · rw [hr.extractor_eq] at h
    cases h
    exact .refused hr

theorem Takes.exists_run {result : Except Fault Unit} (h : kind.Takes s call fields result last) :
    ∃ found v, (kind.extractor s (.object fields) call).run.run s.vars = (found, v) ∧
      settle found = result ∧ v.env = last := by
  cases h with
  | refused hr =>
    rw [hr.extractor_eq]
    exact ⟨_, _, rfl, rfl, rfl⟩
  | @all origin _ hd hf =>
    obtain ⟨v, hv, he⟩ := hf.inTurn.exists_run origin.finds
    rw [hd.extractor_eq]
    exact ⟨_, v, hv, rfl, he⟩
  | @upTo origin _ _ _ _ _ _ hd heq hf hfails =>
    have henters : Enters origin.Gives origin.Lacks fields s.env _ last :=
      .upTo heq hf.inTurn hfails
    obtain ⟨v, hv, he⟩ := henters.exists_run origin.finds
    rw [hd.extractor_eq]
    exact ⟨_, v, hv, rfl, he⟩

/-- An extractor that is given an object binds its names in order, up to the first entry that fails;
the others, and all when there is nothing to take values from, stay as they were, and nothing else
can come of it. The fault of that entry ends the run of a script that has come to the extractor, and
what has been bound then stays. A name that stands for no extractor and for no language ends it too,
and nothing is bound. -/
theorem takes_in_turn (kind : ByEntry) (s : Session) (call : CallContext)
    (ho : Fields.Ordered fields) :
    (∃ result v,
      (Run.ofBinding (kind.extractor s (.object fields) call)).Ends s result { s with vars := v } ∧
      (∀ other last, kind.Takes s call fields other last ↔ other = result ∧ last = v.env) ∧
      ∀ host script u f, Execution.Comes host script u (kind.extractor s (.object fields) call) s →
        result = .error f → (Execution.run host script).Ends u (.error f) { s with vars := v }) ∧
    ∀ key spec rest, s.plugins.extractors.get? key = none → s.plugins.engines.get? key = none →
      (Execution.extractFields call ((key, spec) :: rest)).Ends s
        (.error (.unknownPlugin .extractor key)) s := by
  constructor
  · rcases hrun : (kind.extractor s (.object fields) call).run.run s.vars with ⟨result, v⟩
    refine ⟨settle result, v, Run.ends_ofBinding.mpr ?_, fun other last => ⟨fun h => ?_, ?_⟩,
      fun host script u f hc hf => ?_⟩
    · rw [hrun]
      exact ⟨rfl, rfl⟩
    · obtain ⟨found, w, hw, rfl, rfl⟩ := h.exists_run
      cases hrun.symm.trans hw
      exact ⟨rfl, rfl⟩
    · rintro ⟨rfl, rfl⟩
      exact takes_of_run ho hrun
    · cases result with
      | ok _ => cases hf
      | error trouble =>
        cases hf
        exact hc.ends hrun
  · intro key spec rest hx he
    rw [Execution.extractFields, Run.ends_get_bind, Run.ends_lift_bind]
    refine .inl ⟨_, ?_, rfl, rfl⟩
    rw [Execution.extractor, hx, he]

theorem takes_in_turn_stopped :
    let fields : Fields Json :=
      [("a", .string "0"), ("b", .string "\x7ba\x7d"), ("c", .null), ("d", .string "0")]
    let call : CallContext := ⟨⟨none, [], []⟩, none, some ⟨200, [], "[1,2]"⟩⟩
    ∃ s v, Session.start Environment.empty Settings.standard Plugins.standard = .ok s ∧
      (Run.ofBinding (Extractor.json (.object fields) call)).Ends s
        (.error (.plugin "json extractor path for 'c' must be a string, got null"))
        { s with vars := v } ∧
      v.env.get? "a" = some (.number (.int 1)) ∧ v.env.get? "b" = some (.number (.int 2)) ∧
      v.env.get? "d" = none := by
  intro fields call
  let body : Json := .array [.number (.int 1), .number (.int 2)]
  obtain ⟨s, hs, hempty⟩ : ∃ s,
      Session.start Environment.empty Settings.standard Plugins.standard = .ok s ∧
      s.env = ⟨⟨[(Session.countVariable, Json.ofNat 0)]⟩⟩ := ⟨_, rfl, rfl⟩
  have ha (env : Environment) : body.at? (env.expand "0") = some (.number (.int 1)) := by
    rw [env.expand_of_notMem (by decide)]
    rfl
  have hb (env : Environment) (h : env.get? "a" = some (.number (.int 1))) :
      body.at? (env.expand "\x7ba\x7d") = some (.number (.int 2)) := by
    have he : env.expand "\x7ba\x7d" = "1" :=
      Environment.expand_written (r := ⟨['a'], none⟩)
        ⟨by decide, List.forall_mem_singleton.mpr (by decide), nofun⟩ h
    rw [he]
    rfl
  obtain ⟨⟨result, v, hends, htakes, -⟩, -⟩ :=
    takes_in_turn .json s call (by decide : Fields.Ordered fields)
  have hturn : InTurn (Origin.body body).Gives [("a", .string "0"), ("b", .string "\x7ba\x7d")]
      s.env ⟨⟨[(Session.countVariable, Json.ofNat 0), ("a", .number (.int 1)),
        ("b", .number (.int 2))]⟩⟩ := by
    rw [hempty]
    exact .cons (.path (ha _)) rfl (.cons (.path (hb _ rfl)) rfl .nil)
  obtain ⟨rfl, he⟩ := (htakes _ _).mp (.upTo (.json rfl rfl) rfl
    (fills_of_inTurn hturn (by decide)) (.lacking (.mismatch fun _ => Json.noConfusion)))
  refine ⟨s, v, hs, hends, ?_, ?_, ?_⟩
  · rw [← he]
    rfl
  · rw [← he]
    rfl
  · rw [← he]
    rfl

end ByEntry

end Extractor

end ApiScript
