import ApiScript.Proofs.Expansion.Basic
import ApiScript.Proofs.Fields
import ApiScript.Proofs.Session.Changes
import ApiScript.Proofs.Session.Phases

/-! # Building a request

The headers of a request are those that its script asks for, and perhaps one more, the type of the
body. Which body there is depends on the form of its directive and on the generators that there are.
-/

namespace ApiScript.Execution

variable {s t : Session} {script : Script} {host : Host} {method : Method} {url : String}
  {built : Request} {made : Option RequestBody} {implied : List (String × String)} {f : Fault}

/-! ## Bodies -/

/-- The body of a request, by the form of the directive. -/
inductive Makes (s : Session) (script : Script) : Option RequestBody → Prop where
  | absent : script.directive? "body" = none → Makes s script none
  | null : script.directive? "body" = some .null → Makes s script none
  | text {text : String} : script.directive? "body" = some (.string text) →
      Makes s script (some ⟨s.env.expand text, none⟩)
  | generated {name : String} {spec : Json} {generator : Generator} {made : RequestBody} :
      script.directive? "body" = some (.object [(name, spec)]) →
      s.plugins.generators.get? name = some generator → generator spec s.env = .ok made →
      Makes s script (some made)
  | json {spec : Json} : script.directive? "body" = some spec → spec ≠ .null →
      (∀ text, spec ≠ .string text) →
      (∀ name inner, spec = .object [(name, inner)] → s.plugins.generators.get? name = none) →
      Makes s script (some ⟨(s.env.expandValue spec).render, some "application/json"⟩)

/-- The generator that the body of a script names fails. -/
inductive Spoils (s : Session) (script : Script) : Fault → Prop where
  | intro {name : String} {spec : Json} {generator : Generator} {trouble : Trouble} :
      script.directive? "body" = some (.object [(name, spec)]) →
      s.plugins.generators.get? name = some generator → generator spec s.env = .error trouble →
      Spoils s script (Fault.ofTrouble trouble)

theorem generatorFor_of_get? {plugins : Plugins} {name : String} {spec : Json}
    {generator : Generator} (h : plugins.generators.get? name = some generator) :
    generatorFor plugins (.object [(name, spec)]) = (generator, spec) := by
  rw [generatorFor, h]

theorem generatorFor_of_none {plugins : Plugins} {spec : Json}
    (h : ∀ name inner, spec = .object [(name, inner)] → plugins.generators.get? name = none) :
    generatorFor plugins spec = (Generator.json, spec) := by
  unfold generatorFor
  split
  · rw [h _ _ rfl]
  · rfl

theorem generatorFor_cases (plugins : Plugins) (spec : Json) :
    (∃ name inner generator, spec = .object [(name, inner)] ∧
      plugins.generators.get? name = some generator) ∨
    ∀ name inner, spec = .object [(name, inner)] → plugins.generators.get? name = none := by
  by_contra! h
  obtain ⟨hnone, name, inner, hs, hne⟩ := h
  obtain ⟨generator, hg⟩ := Option.ne_none_iff_exists'.mp hne
  exact hnone name inner generator hs hg

theorem body_of_generator {name : String} {spec : Json} {generator : Generator}
    (hd : script.directive? "body" = some (.object [(name, spec)]))
    (hg : s.plugins.generators.get? name = some generator) :
    body s script = (settle (generator spec s.env)).map some := by
  rw [body_of_spec hd nofun nofun, generatorFor_of_get? hg]

theorem Makes.body_eq (h : Makes s script made) : body s script = .ok made := by
  cases h with
  | absent hd | null hd | text hd =>
    unfold body
    rw [hd]
  | generated hd hg hm =>
    rw [body_of_generator hd hg, hm]
    rfl
  | json hd hn ht hg =>
    rw [body_of_spec hd hn ht, generatorFor_of_none hg]
    rfl

theorem Spoils.body_eq (h : Spoils s script f) : body s script = .error f := by
  cases h with
  | intro hd hg ht =>
    rw [body_of_generator hd hg, ht]
    rfl

theorem makes_or_spoils (s : Session) (script : Script) :
    (∃ made, Makes s script made) ∨ ∃ f, Spoils s script f := by
  cases hd : script.directive? "body" with
  | none => exact .inl ⟨_, .absent hd⟩
  | some spec =>
    by_cases hn : spec = .null
    · exact .inl ⟨_, .null (hn ▸ hd)⟩
    by_cases ht : ∃ text, spec = .string text
    · obtain ⟨text, rfl⟩ := ht
      exact .inl ⟨_, .text hd⟩
    rcases generatorFor_cases s.plugins spec with ⟨name, inner, generator, rfl, hg⟩ | hg
    · cases hm : generator inner s.env with
      | ok made => exact .inl ⟨_, .generated hd hg hm⟩
      | error trouble => exact .inr ⟨_, .intro hd hg hm⟩
    · exact .inl ⟨_, .json hd hn (not_exists.mp ht) hg⟩

theorem body_eq_ok_iff : body s script = .ok made ↔ Makes s script made := by
  refine ⟨fun h => ?_, Makes.body_eq⟩
  rcases makes_or_spoils s script with ⟨_, hm⟩ | ⟨_, hf⟩
  · cases hm.body_eq.symm.trans h
    exact hm
  · cases hf.body_eq.symm.trans h

theorem body_eq_error_iff : body s script = .error f ↔ Spoils s script f := by
  refine ⟨fun h => ?_, Spoils.body_eq⟩
  rcases makes_or_spoils s script with ⟨_, hm⟩ | ⟨_, hf⟩
  · cases hm.body_eq.symm.trans h
  · cases hf.body_eq.symm.trans h
    exact hf

/-! ## Headers -/

def isContentType (name : String) : Bool := asciiLower name == "content-type"

/-- The headers that a body adds to those with some names: its type, if it has one and none of them
gives a type. -/
inductive Implies (names : List String) : Option RequestBody → List (String × String) → Prop where
  | bodiless : Implies names none []
  | untyped {content : String} : Implies names (some ⟨content, none⟩) []
  | given {name content contentType : String} : name ∈ names → isContentType name = true →
      Implies names (some ⟨content, some contentType⟩) []
  | added {content contentType : String} : (∀ name ∈ names, isContentType name = false) →
      Implies names (some ⟨content, some contentType⟩) [("Content-Type", contentType)]

theorem exists_implies (names : List String) (made : Option RequestBody) :
    ∃ implied, Implies names made implied := by
  rcases made with _ | ⟨content, _ | contentType⟩
  · exact ⟨_, .bodiless⟩
  · exact ⟨_, .untyped⟩
  · by_cases h : ∃ name ∈ names, isContentType name = true
    · obtain ⟨name, hm, ht⟩ := h
      exact ⟨_, .given hm ht⟩
    · exact ⟨_, .added fun name hm => Bool.eq_false_iff.mpr fun ht => h ⟨name, hm, ht⟩⟩

theorem hasHeader_contentType_iff {request : Request} :
    request.hasHeader "Content-Type" = true ↔
      ∃ name ∈ request.headers.names, isContentType name = true := by
  have hl : asciiLower "Content-Type" = "content-type" := by decide
  rw [Request.hasHeader, hl]
  exact List.any_eq_true

theorem isContentType_contentType : isContentType "Content-Type" = true := by decide

theorem Implies.withBody_eq {entries : List (String × String)}
    (h : Implies (entries.map (·.1)) made implied) (method : Method) (url : String) :
    withBody ⟨method, url, ⟨entries⟩, none⟩ made =
      ⟨method, url, ⟨entries ++ implied⟩, made.map (·.content)⟩ := by
  unfold withBody
  cases h with
  | bodiless | untyped =>
    rw [List.append_nil]
    rfl
  | given hm ht =>
    rw [List.append_nil]
    exact if_pos (hasHeader_contentType_iff.mpr ⟨_, hm, ht⟩)
  | added hn =>
    have hnone : "Content-Type" ∉ entries.map (·.1) := fun hm =>
      Bool.eq_false_iff.mp (hn _ hm) isContentType_contentType
    rw [← Table.put_of_notMem hnone]
    refine if_neg fun hh => ?_
    obtain ⟨name, hm, ht⟩ := hasHeader_contentType_iff.mp hh
    exact Bool.eq_false_iff.mp (hn name hm) ht

theorem Implies.countP_le {names : List String} (h : Implies names made implied) :
    (names ++ implied.map (·.1)).countP isContentType ≤ max 1 (names.countP isContentType) := by
  rw [List.countP_append]
  cases h with
  | added hn =>
    have hzero : names.countP isContentType = 0 :=
      List.countP_eq_zero.mpr fun name hm => Bool.eq_false_iff.mp (hn name hm)
    rw [hzero, Nat.zero_add]
    exact List.countP_le_length.trans (le_max_left _ _)
  | _ => exact le_max_right _ _

def written (env : Environment) (fields : Fields Json) : List (String × String) :=
  fields.map fun field => (field.1, (env.expandValue field.2).asText)

theorem names_written (env : Environment) (fields : Fields Json) :
    (written env fields).map (·.1) = Fields.names fields := by
  rw [written, List.map_map]
  rfl

theorem headers_of_directive {fields : Fields Json}
    (h : (script.directive? "headers").getD (.object []) = .object fields) :
    headers s script = .ok ⟨written s.env fields⟩ := by
  unfold headers
  cases hd : script.directive? "headers" with
  | none =>
    rw [hd] at h
    cases h
    rfl
  | some spec =>
    rw [hd] at h
    cases h
    rfl

/-! ## Requests -/

theorem request_of_directive {fields : Fields Json}
    (h : (script.directive? "headers").getD (.object []) = .object fields) :
    request s script method url =
      (body s script).map (withBody ⟨method, s.env.expand url, ⟨written s.env fields⟩, none⟩) := by
  rw [request, headers_of_directive h]
  cases body s script <;> rfl

theorem request_eq_ok_iff {fields : Fields Json}
    (h : (script.directive? "headers").getD (.object []) = .object fields) :
    request s script method url = .ok built ↔
      ∃ made implied, Makes s script made ∧ Implies (Fields.names fields) made implied ∧
        built = ⟨method, s.env.expand url, ⟨written s.env fields ++ implied⟩,
          made.map (·.content)⟩ := by
  have hwith {made : Option RequestBody} {implied : List (String × String)}
      (hi : Implies (Fields.names fields) made implied) := by
    rw [← names_written s.env] at hi
    exact hi.withBody_eq method (s.env.expand url)
  rw [request_of_directive h]
  constructor
  · intro hb
    cases hm : body s script with
    | error f =>
      rw [hm] at hb
      cases hb
    | ok made =>
      obtain ⟨implied, hi⟩ := exists_implies (Fields.names fields) made
      rw [hm] at hb
      cases hb
      exact ⟨made, implied, body_eq_ok_iff.mp hm, hi, hwith hi⟩
  · rintro ⟨made, implied, hm, hi, rfl⟩
    rw [hm.body_eq, ← hwith hi]
    rfl

theorem Exchanges.vars_eq {result : Except Fault CallContext}
    (h : Exchanges host script s result t) : t.vars = s.vars := by
  cases h with
  | unclear | silent | unbuilt => rfl
  | unanswered | answered => rw [Session.sending_eq]

/-- A request has the headers that its script asks for, with the texts of their expanded values, in
the order of their names, and behind them the type of the body, if the body was made by a generator
that gives it a type and the script asks for no header of that name. So each header of the script
has its own text, and the type is not given twice unless the script does. The body is what the form
of its directive says, and only the generator that it names can fail. All variables stay as they
were. -/
theorem request_composed {fields : Fields Json}
    (hh : (script.directive? "headers").getD (.object []) = .object fields)
    (ho : Fields.Ordered fields) (s : Session) (method : Method) (url : String) :
    (∀ built, request s script method url = .ok built ↔
      ∃ made implied, Makes s script made ∧ Implies (Fields.names fields) made implied ∧
        built = ⟨method, s.env.expand url, ⟨written s.env fields ++ implied⟩,
          made.map (·.content)⟩) ∧
    (∀ f, request s script method url = .error f ↔ Spoils s script f) ∧
    (∀ built, request s script method url = .ok built →
      (∀ field ∈ fields,
        built.headers.get? field.1 = some (s.env.expandValue field.2).asText) ∧
      built.headers.names.countP isContentType ≤
        max 1 ((Fields.names fields).countP isContentType)) ∧
    ∀ host result t, (exchange host script).Ends s result t → t.vars = s.vars := by
  refine ⟨fun built => request_eq_ok_iff hh, fun f => ?_, fun built hb => ?_,
    fun host result t h => (ends_exchange_iff.mp h).vars_eq⟩
  · rw [request_of_directive hh, ← body_eq_error_iff]
    cases body s script <;> simp [Except.map]
  · obtain ⟨made, implied, -, hi, rfl⟩ := (request_eq_ok_iff hh).mp hb
    have hn : ((written s.env fields).map (·.1)).Nodup := by
      rw [names_written]
      exact ho.nodup
    refine ⟨fun field hf => ?_, ?_⟩
    · have hm : (field.1, (s.env.expandValue field.2).asText) ∈ written s.env fields :=
        List.mem_map.mpr ⟨field, hf, rfl⟩
      exact Table.find?_append (Table.find?_of_mem hn hm) implied
    · change ((written s.env fields ++ implied).map (·.1)).countP isContentType ≤ _
      rw [List.map_append, names_written]
      exact hi.countP_le

theorem request_composed_typed :
    let env : Environment := ⟨⟨[("x", .bool true)]⟩⟩
    let typed : Script := ⟨none, [], [("body", .object [("a", .string "\x7bx\x7d")]),
      ("headers",
        .object [("content-TYPE", .number (.int 1)), ("\x7bx\x7d", .string "\x7bx\x7d")])]⟩
    let plain : Script := ⟨none, [], [("body", .object [("text", .string "\x7bx\x7d")])]⟩
    ∃ s, Session.start env Settings.standard Plugins.standard = .ok s ∧
      request s typed .post "/\x7bx\x7d" = .ok ⟨.post, "/true",
        ⟨[("content-TYPE", "1"), ("\x7bx\x7d", "true")]⟩, some "\x7b\"a\":true\x7d"⟩ ∧
      request s plain .get "" =
        .ok ⟨.get, "", ⟨[("Content-Type", "text/plain")]⟩, some "true"⟩ := by
  intro env typed plain
  obtain ⟨s, hs, hg, he⟩ : ∃ s, Session.start env Settings.standard Plugins.standard = .ok s ∧
      s.plugins = Plugins.standard ∧
      s.env = ⟨env.bindings.insert Session.countVariable (Json.ofNat 0)⟩ := ⟨_, rfl, rfl, rfl⟩
  have hurl : s.env.expand "/\x7bx\x7d" = "/true" := by
    rw [he]
    decide +kernel
  have htext : s.env.expand "\x7bx\x7d" = "true" := by
    rw [he]
    decide +kernel
  have hempty : s.env.expand "" = "" := s.env.expand_of_notMem (by decide)
  have hwritten : written s.env
      [("content-TYPE", .number (.int 1)), ("\x7bx\x7d", .string "\x7bx\x7d")] =
        [("content-TYPE", "1"), ("\x7bx\x7d", "true")] := by
    rw [he]
    decide +kernel
  have hjson : (s.env.expandValue (.object [("a", .string "\x7bx\x7d")])).render =
      "\x7b\"a\":true\x7d" := by
    rw [he]
    decide +kernel
  have hnone : s.plugins.generators.get? "a" = none := by
    rw [hg]
    rfl
  have hsome : s.plugins.generators.get? "text" = some Generator.text := by
    rw [hg]
    rfl
  refine ⟨s, hs, ?_, ?_⟩
  · obtain ⟨hok, -⟩ := request_composed (rfl : (typed.directive? "headers").getD _ = .object _)
      (by decide) s .post "/\x7bx\x7d"
    have hmakes := Makes.json (rfl : typed.directive? "body" = _) nofun nofun
      (by rintro _ _ ⟨⟩; exact hnone)
    refine (hok _).mpr ⟨_, _, hmakes, .given List.mem_cons_self ?_, ?_⟩
    · decide
    · rw [hurl, hwritten, hjson]
      rfl
  · obtain ⟨hok, -⟩ := request_composed (rfl : (plain.directive? "headers").getD _ = .object _)
      .nil s .get ""
    have hmakes := Makes.generated (rfl : plain.directive? "body" = _) hsome rfl
    refine (hok _).mpr ⟨_, _, hmakes, .added (fun _ hm => nomatch hm), ?_⟩
    rw [hempty, htext]
    rfl

end ApiScript.Execution
