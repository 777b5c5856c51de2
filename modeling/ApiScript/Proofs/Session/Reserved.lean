import ApiScript.Proofs.Expansion.Basic
import ApiScript.Proofs.Plugin.Attempts
import ApiScript.Proofs.Session.Deeds
import ApiScript.Proofs.Session.Journal

/-! # Reserved names

The name of a code point is never bound, whatever is done; to try ends what is being done, and
changes nothing.
-/

namespace ApiScript

variable {host : Host} {s t u v : Session} {script : Script} {name : String}

/-! ## Environments -/

namespace Environment

variable {env next : Environment}

/-- Environments are made of nothing, or of the variables of a process, by binding and unbinding. -/
inductive Made : Environment → Prop where
  | empty : Made Environment.empty
  | ofProcess (process : ProcessVariables) : Made (ofProcess process)
  | bind {env next : Environment} {name : String} {value : Json} : Made env →
      env.bind name value = .ok next → Made next
  | unbind {env : Environment} (name : String) : Made env → Made (env.unbind name)

theorem isBound_ofProcess (process : ProcessVariables) (hr : isReserved name = true) :
    (ofProcess process).isBound name = false := by
  unfold ofProcess isBound
  refine List.foldlRecOn (motive := fun t : Table Json => t.contains name = false) process _ rfl ?_
  intro t ht entry _
  split
  · split
    · exact ht
    · rename_i other _ _ _ ho
      rw [Table.contains_insert, ht, Bool.or_false, decide_eq_false_iff_not]
      rintro rfl
      exact ho hr
  · exact ht

theorem isBound_of_bind {other : String} {value : Json} (h : env.bind other value = .ok next)
    (hr : isReserved name = true) : next.isBound name = env.isBound name := by
  unfold Environment.bind at h
  split at h
  · cases h
  · rename_i hother
    cases h
    have hne : decide (other = name) = false := by
      rw [decide_eq_false_iff_not]
      rintro rfl
      exact hother hr
    exact Table.contains_insert.trans (by rw [hne, Bool.false_or]; rfl)

theorem isBound_unbind (other : String) (h : env.isBound name = false) :
    (env.unbind other).isBound name = false := by
  change ((env.bindings.erase other).get? name).isSome = false
  rw [Table.get?_erase]
  split
  · rfl
  · exact h

theorem Made.isBound_of_reserved (h : env.Made) (hr : isReserved name = true) :
    env.isBound name = false := by
  induction h with
  | empty => rfl
  | ofProcess process => exact isBound_ofProcess process hr
  | bind _ h ih => rw [isBound_of_bind h hr, ih]
  | unbind other _ ih => exact isBound_unbind other ih

theorem Made.leads {events : List Event} (hm : env.Made)
    (h : Event.Leads Event.tellsVariable Follows env events next) : next.Made := by
  induction h with
  | nil => exact hm
  | skip _ _ ih => exact ih hm
  | @step _ _ _ e _ _ hs _ ih =>
    obtain ⟨name, -, -, hs⟩ := hs
    refine ih ?_
    cases hn : e.new with
    | none =>
      rw [hn] at hs
      exact hs ▸ hm.unbind name
    | some value =>
      rw [hn] at hs
      exact hm.bind hs

theorem expand_of_names {c : Char} (h : CodePoint.Names name.toList c) (env : Environment) :
    env.expand ("\x7b" ++ name ++ "\x7d") = String.ofList [c] := by
  have hw : "\x7b" ++ name ++ "\x7d" = String.ofList (Reference.written ⟨name.toList, none⟩) := by
    simp [Reference.written, ← String.toList_inj]
  rw [hw, expand_written h.wellFormed (lookup_of_names h env), Json.asText]

end Environment

theorem Session.Told.made {allowed : Event → Prop} (h : s.Told allowed t) (hs : s.env.Made) :
    t.env.Made := by
  obtain ⟨events, ht, -⟩ := h
  exact hs.leads ht.env

/-! ## Bindings that a script comes to -/

namespace Run

theorem ends_ofBinding {b : Binding Unit} {result : Except Fault Unit} :
    (ofBinding b).Ends s result t ↔ result = settle (b.run.run s.vars).1 ∧
      t = { s with vars := (b.run.run s.vars).2 } :=
  ends_lift

end Run

namespace Execution

variable {call : CallContext} {b : Binding Unit}

theorem extractFields_append (fields rest : Fields Json) :
    extractFields call (fields ++ rest) =
      (extractFields call fields >>= fun _ => extractFields call rest) := by
  induction fields with
  | nil => rfl
  | cons field fields ih =>
    obtain ⟨key, spec⟩ := field
    simp only [List.cons_append, extractFields, ih, bind_assoc]

theorem extractItems_append (items rest : List Json) :
    extractItems call (items ++ rest) =
      (extractItems call items >>= fun _ => extractItems call rest) := by
  induction items with
  | nil => rfl
  | cons item items ih =>
    cases item with
    | object fields => simp only [List.cons_append, extractItems, ih, bind_assoc]
    | _ => rfl

/-- A script that runs comes to bind its variables, or to an extractor, in the session that is the
last here: all before it has ended well. -/
inductive Comes (host : Host) (script : Script) (s : Session) : Binding Unit → Session → Prop where
  | bindVariables {m : Script} {fields : Fields Json} : (complete script).Ends s (.ok m) s →
      m.directive? "env" = some (.object fields) → Comes host script s (bindVariables fields) s
  | extractor {m : Script} {call : CallContext} {before after : List Json}
      {fields rest : Fields Json} {key : String} {spec : Json} {plugin : Extractor}
      {u v w : Session} : (complete script).Ends s (.ok m) s → (bindEnv m).Ends s (.ok ()) u →
      conditionHolds m u = .ok true → failures u ⟨m, none, none⟩ "preconditions" = .ok [] →
      (exchange host m).Ends u (.ok call) v →
      call.script.list "bind" = before ++ .object (fields ++ (key, spec) :: rest) :: after →
      Run.Ends (extractItems call before >>= fun _ => extractFields call fields) v (.ok ()) w →
      Execution.extractor w key = .ok plugin → Comes host script s (plugin spec call) w

theorem told_exchange {result : Except Fault CallContext}
    (h : (exchange host script).Ends s result t) : s.Told (fun _ => True) t := by
  rcases ends_exchange s.plugins.confined_true h with ⟨rfl, -⟩ | ⟨request, rfl, -⟩
  · exact .refl _
  · exact s.told_sending host request

theorem Comes.told (h : Comes host script s b u) : s.Told (fun _ => True) u := by
  cases h with
  | bindVariables => exact .refl s
  | @extractor m call before _ fields _ _ _ _ x v _ _ henv _ _ hsent _ hextract _ =>
    have hx : s.Rebinds x := (binds_bindEnv (P := fun _ => True) _ _ henv).1
    have hp := v.plugins.confined_true
    have hu : v.Rebinds u := by
      have hb : Run.Binds (fun _ => True)
          (extractItems call before >>= fun _ => extractFields call fields) v :=
        (binds_extractItems hp before).bind fun _ y _ =>
          binds_extractFields y.plugins.confined_true fields
      exact (hb _ _ hextract).1
    refine (hx.told.mono fun _ _ => trivial).trans ((told_exchange hsent).trans ?_)
    exact hu.told.mono fun _ _ => trivial

theorem ends_extract_error {before after : List Json} {fields rest : Fields Json} {key : String}
    {spec : Json} {plugin : Extractor} {f : Fault}
    (hl : call.script.list "bind" = before ++ .object (fields ++ (key, spec) :: rest) :: after)
    (he : Run.Ends (extractItems call before >>= fun _ => extractFields call fields) s (.ok ()) u)
    (hp : Execution.extractor u key = .ok plugin)
    (h : (Run.ofBinding (plugin spec call)).Ends u (.error f) t) :
    (extract call).Ends s (.error f) t := by
  obtain ⟨_, hnone, hf⟩ | ⟨_, v, hitems, hfields⟩ := Run.ends_bind.mp he
  · cases hf
  have hlast : (extractFields call ((key, spec) :: rest)).Ends u (.error f) t := by
    rw [extractFields, Run.ends_get_bind]
    exact Run.ends_lift_bind.mpr (.inr ⟨plugin, hp, Run.ends_bind.mpr (.inl ⟨f, h, rfl⟩)⟩)
  have hitem : (extractFields call (fields ++ (key, spec) :: rest)).Ends v (.error f) t := by
    rw [extractFields_append]
    exact Run.ends_bind.mpr (.inr ⟨(), u, hfields, hlast⟩)
  rw [extract, hl, extractItems_append]
  refine Run.ends_bind.mpr (.inr ⟨(), v, hitems, ?_⟩)
  rw [extractItems]
  exact Run.ends_bind.mpr (.inl ⟨f, hitem, rfl⟩)

theorem Comes.ends {trouble : Trouble} {w : Variables} (h : Comes host script s b u)
    (hb : b.run.run u.vars = (.error trouble, w)) :
    (run host script).Ends s (.error (Fault.ofTrouble trouble)) { u with vars := w } := by
  have hfail : (Run.ofBinding b).Ends u (.error (Fault.ofTrouble trouble)) { u with vars := w } :=
    Run.ends_ofBinding.mpr (by rw [hb]; exact ⟨rfl, rfl⟩)
  refine ends_run_iff.mpr ?_
  cases h with
  | @bindVariables m fields hm hd =>
    refine .env hm ?_
    unfold bindEnv
    rw [hd]
    exact hfail
  | extractor hm henv hc hf hsent hl hextract hp =>
    exact .bind ⟨hm, henv, hc, hf⟩ hsent (ends_extract_error hl hextract hp hfail)

end Execution

theorem ends_runScript_of_reserved {b : Binding Unit} {w : Variables}
    (h : Execution.Comes host script s b u) (hb : b.IsStandard) (ha : b.Attempts u.vars name w)
    (hr : Environment.isReserved name = true) :
    (runScript host script).Ends s (.error (.reservedName name)) { u with vars := w } :=
  ends_runScript.mpr ⟨_, _, h.ends (hb.strict.run_of_attempts ha hr), .fault rfl⟩

/-! ## Sessions that arise -/

namespace Session

/-- Sessions start in environments that are made by binding, or as branches of others. They arise by
any operations, and within these where a script begins to run and where it comes to bind
variables. -/
inductive Arises : Session → Prop where
  | start {env : Environment} {settings : Settings} {plugins : Plugins} {s : Session} : env.Made →
      Session.start env settings plugins = .ok s → Arises s
  | branch {s : Session} : Arises s → Arises s.branch
  | operation {host : Host} {op : Operation} {result : Except Fault Unit} {s t : Session} :
      Arises s → op.Ends host s result t → Arises t
  | script {host : Host} {task : Task} {depth : Nat} {pending : Bool} {script : Script}
      {result : Except Fault Unit} {s u t : Session} : Arises s →
      .run pending script u result t ∈ (task.course host depth s).deeds → Arises u
  | binding {host : Host} {script : Script} {b : Binding Unit} {s u : Session} : Arises s →
      Execution.Comes host script s b u → Arises u

theorem told_opening (task : Task) (s : Session) : s.Told (fun _ => True) (task.opening s) := by
  unfold Task.opening
  split
  · exact s.told_clearCancelled.mono fun _ _ => trivial
  · exact .refl s

theorem Arises.made (h : s.Arises) : s.env.Made := by
  induction h with
  | @start env settings plugins s hm h =>
    unfold Session.start at h
    dsimp only at h
    split at h
    · cases h
    · rename_i t ht
      cases h
      exact ((rebinds_of_bindAll ht).trans (rebinds_publishCount t)).told.made hm
  | branch _ ih => exact (rebinds_publishCount _).told.made ih
  | operation _ h ih =>
    rcases told_operation h with h | ⟨-, rfl⟩ | ⟨id, -, rfl⟩
    · exact h.made ih
    · exact ih
    · exact ih
  | @script host task depth _ _ _ s _ _ _ h ih =>
    have hc := task.obeys_course (telling host).toHoldsWithin depth s
    exact ((told_opening task s).trans (hc.begins _ _ _ _ _ h).1).made ih
  | binding _ h ih => exact h.told.made ih

theorem bind_of_reserved (h : Environment.isReserved name = true) (s : Session) (value : Json) :
    s.bind name value = .error (.reservedName name) := by
  rw [bind, Binding.bind_of_reserved h]

theorem bindAll_of_reserved (h : Environment.isReserved name = true) {value : Json}
    {before after : List (String × Json)} (hb : ∀ b ∈ before, Environment.isReserved b.1 = false)
    (s : Session) : s.bindAll (before ++ (name, value) :: after) = .error (.reservedName name) := by
  induction before generalizing s with
  | nil => rw [List.nil_append, bindAll, bind_of_reserved h]
  | cons binding rest ih =>
    obtain ⟨hfirst, hrest⟩ := List.forall_mem_cons.mp hb
    obtain ⟨t, ht⟩ : ∃ t, s.bind binding.1 binding.2 = .ok t := by
      simp [bind, Variables.bind, Environment.bind, hfirst]
    rw [List.cons_append, bindAll, ht]
    exact ih hrest t

/-- Wherever it is tried to bind a name, this fails with that name, and changes nothing. -/
structure Refuses (name : String) : Prop where
  environment : ∀ (env : Environment) value, env.bind name value = .error (.reservedName name)
  operation : ∀ host s value result t, (Operation.bind name value).Ends host s result t ↔
    result = .error (.reservedName name) ∧ t = s
  /-- The settings are bound in order, so that the first reserved name is the one that is told. -/
  settings : ∀ env (settings : Settings) plugins before value after,
    settings.bindings = before ++ (name, value) :: after →
    (∀ b ∈ before, Environment.isReserved b.1 = false) →
    start env settings plugins = .error (.reservedName name)
  task : ∀ host (task : Task) depth s pending script u result t b x w,
    .run pending script u result t ∈ (task.course host depth s).deeds →
    Execution.Comes host script u b x → b.IsStandard → b.Attempts x.vars name w →
    result = .error (.reservedName name) ∧ t = { x with vars := w } ∧ task.Ends host s result t

theorem refuses_of_reserved (h : Environment.isReserved name = true) : Refuses name where
  environment env value := by rw [Environment.bind, if_pos h]
  operation host s value result t := by
    have hb := bind_of_reserved h s value
    constructor
    · intro hop
      cases hop with
      | bind ht => cases hb.symm.trans ht
      | reserved hf =>
        cases hb.symm.trans hf
        exact ⟨rfl, rfl⟩
    · rintro ⟨rfl, rfl⟩
      exact .reserved hb
  settings env settings plugins before value after hl hb := by
    unfold start
    dsimp only
    rw [hl, bindAll_of_reserved h hb]
  task host task depth s pending script u result t b x w hd hc hb ha := by
    have hl := (telling host).toHoldsWithin
    have hrun := ((task.obeys_course hl depth s).begins _ _ _ _ _ hd).2
    obtain ⟨rfl, rfl⟩ := hrun.unique (ends_runScript_of_reserved hc hb ha h)
    exact ⟨rfl, rfl, Task.ends_of_failing_script hd⟩

/-- A `U`, a plus sign and four to six hexadecimal digits are the name of no variable in any session
that ever arises. To bind it fails with that name, on every way to a binding, and changes nothing.
If the digits are the code point of a character, the name stands for it everywhere. -/
theorem never_binds_reserved {u : Char} {digits : List Char} (hn : name.toList = u :: '+' :: digits)
    (hu : u = 'U' ∨ u = 'u') (hl : 4 ≤ digits.length ∧ digits.length ≤ 6)
    (hd : ∀ d ∈ digits, isHexDigit d = true) :
    (∀ s : Session, s.Arises → s.env.isBound name = false) ∧ Refuses name ∧
      ∀ c : Char, naturalOf? 16 digits = some c.toNat → ∀ env : Environment,
        env.expand ("\x7b" ++ name ++ "\x7d") = String.ofList [c] := by
  have hr : Environment.isReserved name = true := by
    refine CodePoint.isName_iff.mpr ⟨digits, ?_, CodePoint.areDigits_iff.mpr ⟨hl.1, hl.2, hd⟩⟩
    rw [hn]
    exact hu.imp (congrArg (· :: '+' :: digits)) (congrArg (· :: '+' :: digits))
  refine ⟨fun s hs => hs.made.isBound_of_reserved hr, refuses_of_reserved hr, fun c hc env => ?_⟩
  exact Environment.expand_of_names (hn ▸ .intro hu hl.1 hl.2 hd hc) env

theorem never_binds_reserved_computed :
    let script : Script :=
      ⟨none, [], [("GET", .string "a"), ("bind", .object [("json", .string "\x7bx\x7d")])]⟩
    let host := Host.always ⟨200, [], "null"⟩
    ∃ s x t b w, s.Arises ∧ Execution.Comes host script s b x ∧ b.IsStandard ∧
      b.Attempts x.vars "U+0041" w ∧ t.sent.length = 1 ∧
      (Task.script script).Ends host s (.error (.reservedName "U+0041")) t ∧
      t.env.isBound "U+0041" = false ∧ t.env.expand ("\x7b" ++ "U+0041" ++ "\x7d") = "A" := by
  intro script host
  let env : Environment := ⟨⟨[("x", .string "U+0041")]⟩⟩
  have hmade : env.Made :=
    .bind .empty (rfl : Environment.empty.bind "x" (.string "U+0041") = .ok env)
  obtain ⟨s, call, x, hs, hsent, hresponse, hlookup, hlist, hplugin, hlength⟩ : ∃ s call x,
      start env Settings.standard Plugins.standard = .ok s ∧
      (Execution.exchange host script).Ends s (.ok call) x ∧
      call.response = some ⟨200, [], "null"⟩ ∧ x.env.lookup "x".toList = some (.string "U+0041") ∧
      call.script.list "bind" = [] ++ [.object ([] ++ [("json", .string "\x7bx\x7d")])] ∧
      Execution.extractor x "json" = .ok Extractor.json ∧ x.sent.length = 1 :=
    ⟨_, _, _, rfl, rfl, rfl, rfl, rfl, rfl, rfl⟩
  have hcomes : Execution.Comes host script s (Extractor.json (.string "\x7bx\x7d") call) x :=
    .extractor rfl rfl rfl rfl hsent hlist rfl hplugin
  have hexpand : x.env.expand "\x7bx\x7d" = "U+0041" :=
    Environment.expand_written (r := ⟨['x'], none⟩)
      ⟨by decide, List.forall_mem_singleton.mpr (by decide), nofun⟩ hlookup
  have hattempt : (Extractor.json (.string "\x7bx\x7d") call).Attempts x.vars "U+0041" x.vars :=
    hexpand ▸ Extractor.attempts_json hresponse rfl
  have hdeed : .run false script s (.error (.reservedName "U+0041")) { x with vars := x.vars } ∈
      ((Task.script script).course host 0 s).deeds := by
    have hrun := ends_runScript_of_reserved hcomes (.json _ _) hattempt (by decide)
    change _ ∈ (Course.runScript host false script s).deeds
    rw [Course.runScript_of_ends hrun]
    exact List.mem_cons_self
  have hn : "U+0041".toList = 'U' :: '+' :: "0041".toList := rfl
  obtain ⟨hbound, hrefuses, hcharacter⟩ :=
    never_binds_reserved hn (.inl rfl) (by decide) (List.all_eq_true.mp (by decide))
  obtain ⟨-, -, hends⟩ :=
    hrefuses.task _ _ _ _ _ _ _ _ _ _ _ _ hdeed hcomes (.json _ _) hattempt
  have harises : s.Arises := .start hmade hs
  exact ⟨s, x, _, _, x.vars, harises, hcomes, .json _ _, hattempt, hlength, hends,
    hbound _ (harises.operation (.task hends)), hcharacter 'A' rfl _⟩

end Session

end ApiScript
