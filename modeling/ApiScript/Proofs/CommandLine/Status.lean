import ApiScript.CommandLine.Run
import ApiScript.Proofs.Session.Counting
import ApiScript.Proofs.Source.Reading

/-! # What the exit status tells

The exit status is zero for the runs that nothing is wrong with, and only for those. Up to 255 it
tells the number of failed assertions, and beyond that it stays at 255.
-/

namespace ApiScript

variable {aborted : Bool} {n depth : Nat} {s t : Session} {result : Except Fault Unit}
  {a : Arguments} {arguments : List String} {process : ProcessVariables} {files : Files}
  {transport : List Request → Request → Except Trouble Response × Bool} {settings : Settings}

/-! ## The number -/

theorem exitStatus_le (aborted : Bool) (n : Nat) : exitStatus aborted n ≤ 255 :=
  Nat.min_le_left _ _

theorem exitStatus_eq_zero_iff : exitStatus aborted n = 0 ↔ aborted = false ∧ n = 0 := by
  cases aborted <;> simp only [exitStatus] <;> grind

theorem exitStatus_of_le (h₁ : 1 ≤ n) (h₂ : n ≤ 255) : exitStatus aborted n = n := by
  cases aborted <;> simp only [exitStatus] <;> grind

/-! ## What is counted -/

namespace Ledger

def allFailures (l : Ledger) : List AssertionFailure := l.calls.flatMap fun c => c.failures

theorem allFailures_eq_nil_iff {l : Ledger} :
    l.allFailures = [] ↔ ∀ c ∈ l.calls, c.failures = [] :=
  List.flatMap_eq_nil_iff

end Ledger

theorem Session.report_eq (s : Session) :
    s.report = s.ledger.allFailures.length + if s.ledger.calls = [] then 1 else 0 := by
  rw [Session.report, Ledger.recordedFailures_eq_length, Ledger.allFailures]
  simp only [List.isEmpty_iff]

theorem Session.report_eq_zero_iff : s.report = 0 ↔
    s.ledger.calls ≠ [] ∧ ∀ c ∈ s.ledger.calls, c.failures = [] := by
  rw [← Ledger.allFailures_eq_nil_iff, report_eq, Nat.add_eq_zero_iff, List.length_eq_zero_iff]
  split <;> simp [*]

/-- A history with failed assertions has calls, so that no more than those are reported. -/
theorem Session.report_of_failures (h : s.ledger.allFailures ≠ []) :
    s.report = s.ledger.allFailures.length := by
  have hc : s.ledger.calls ≠ [] := by
    intro hc
    rw [Ledger.allFailures, hc] at h
    exact h rfl
  rw [report_eq, if_neg hc, Nat.add_zero]

/-! ## The status -/

namespace CommandLine

def abortOf : Except Fault Unit → Option Fault
  | .ok () => none
  | .error f => some f

theorem runOver_eq (ha : Arguments.ofProcess arguments process = .ok a)
    (hset : a.settings = .ok settings)
    (hs : Session.start (Environment.ofProcess process) settings Plugins.standard = .ok s)
    (ht : (Session.executeSources ⟨transport, Source.read files⟩ a.sources depth).Ends s result t) :
    runOver transport arguments process files depth = .ran a (abortOf result) t := by
  unfold Resolution.Ends at ht
  simp only [runOver, ha, hset, hs, ht]
  cases result <;> rfl

/-- When the sources have been run, be it up to a fault, the exit status is zero just if there was
no fault, some call is recorded, and no recorded call has a failed assertion. Otherwise it is from 1
to 255, and it is the number of failed assertions of the recorded calls if that is from 1 to 255.
The word that the process leaves is that number. -/
theorem status_tells (ha : Arguments.ofProcess arguments process = .ok a)
    (hset : a.settings = .ok settings)
    (hs : Session.start (Environment.ofProcess process) settings Plugins.standard = .ok s)
    (ht : (Session.executeSources ⟨transport, Source.read files⟩ a.sources depth).Ends s result t) :
    let status := (runOver transport arguments process files depth).status
    let failures := t.ledger.calls.flatMap fun c => c.failures
    (status = 0 ↔
      result = .ok () ∧ t.ledger.calls ≠ [] ∧ ∀ c ∈ t.ledger.calls, c.failures = []) ∧
    (status ≠ 0 → 1 ≤ status ∧ status ≤ 255) ∧
    (1 ≤ failures.length → failures.length ≤ 255 → status = failures.length) ∧
    status.toUInt32.toNat = status := by
  intro status failures
  have hst : status = exitStatus (abortOf result).isSome t.report := by
    rw [show status = _ from congrArg Ending.status (runOver_eq ha hset hs ht)]
    rfl
  have hle : status ≤ 255 := hst ▸ exitStatus_le _ _
  have hresult : (abortOf result).isSome = false ↔ result = .ok () := by
    cases result <;> simp [abortOf]
  refine ⟨?_, fun h => ⟨Nat.one_le_iff_ne_zero.mpr h, hle⟩, fun h₁ h₂ => ?_, ?_⟩
  · rw [hst, exitStatus_eq_zero_iff, hresult, Session.report_eq_zero_iff]
  · have hne : t.ledger.allFailures ≠ [] := List.length_pos_iff.mp h₁
    rw [hst, Session.report_of_failures hne]
    exact exitStatus_of_le h₁ h₂
  · exact UInt32.toNat_ofNat_of_lt' (Nat.lt_of_le_of_lt hle (by decide))

theorem status_tells_aborted :
    let text := "\x7b\"assert\":[\x7b\"bound\":\"x\"\x7d,\x7b\"bound\":\"y\"\x7d]\x7d"
    let tree : Files.Tree := [(["a"], text.toUTF8)]
    let host : Host := ⟨Host.unreachable, Source.read (Files.ofTree tree)⟩
    ∃ a s t f, Arguments.ofProcess ["a", "b"] [] = .ok a ∧ a.settings = .ok Settings.standard ∧
      Session.start (Environment.ofProcess []) Settings.standard Plugins.standard = .ok s ∧
      (Session.executeSources host a.sources 0).Ends s (.error f) t ∧ t.ledger.calls.length = 1 ∧
      (runOver Host.unreachable ["a", "b"] [] (Files.ofTree tree) 0).status = 2 := by
  intro text tree host
  let document : Json := .object [("assert", .array
    [.object [("bound", .string "x")], .object [("bound", .string "y")]])]
  have hwritten : Json.parseWritten? text = some document := by
    dsimp only [text, document]
    rfl
  have hparse : Source.parse (Locator.isYamlPath "a") text = .ok document :=
    Source.parse_json (Json.parse?_of_written hwritten)
  have hlocal : Locator.ofText "a" = .localPath "a" ∧ Locator.ofText "b" = .localPath "b" :=
    ⟨rfl, rfl⟩
  have hfound : Files.ofTree tree "a" = .ok text.toUTF8 :=
    Files.ofTree_of_notMem (by decide) (by decide) (by decide) (by decide)
  have hmissing : Files.ofTree tree "b" = .error .missing :=
    Files.ofTree_of_notMem (by decide) (by decide) (by decide) (by decide)
  have hfirst : host.read "a" = .ok [document] := Source.read_of_toUTF8 hlocal.1 hfound hparse
  obtain ⟨causes, hsecond⟩ : ∃ causes, host.read "b" = .error causes :=
    ⟨_, Source.read_of_error hlocal.2 hmissing⟩
  obtain ⟨s, u, hs, hstarted, hu, hgoing, hlength, hfailures⟩ : ∃ s u,
      Session.start (Environment.ofProcess []) Settings.standard Plugins.standard = .ok s ∧
      s.clearCancelled.observe.cancelled = false ∧
      (Resolution.resolveAll host (Resolution.follow host 0) [document]).Ends
        s.clearCancelled.observe (.ok ()) u ∧
      u.observe.cancelled = false ∧ u.observe.ledger.calls.length = 1 ∧
      (u.observe.ledger.calls.flatMap fun c => c.failures).length = 2 :=
    ⟨_, _, rfl, rfl, rfl, rfl, rfl, rfl⟩
  have ht : (Session.executeSources host ["a", "b"] 0).Ends s (.error (.load "b" causes))
      u.observe := by
    rw [Session.executeSources, Resolution.ends_modify_bind, Resolution.ends_resolveSources_cons,
      hstarted, if_neg Bool.false_ne_true]
    refine Resolution.ends_bind.mpr (.inr ⟨u, ?_, ?_⟩)
    · exact Resolution.ends_resolveSource.mpr
        (.inr ⟨_, Resolution.read_eq_ok_iff.mpr hfirst, hu⟩)
    · rw [Resolution.ends_resolveSources_cons, hgoing, if_neg Bool.false_ne_true]
      refine Resolution.ends_bind.mpr (.inl ⟨_, Resolution.ends_resolveSource.mpr (.inl ?_), rfl⟩)
      exact ⟨_, Resolution.read_eq_error_iff.mpr ⟨_, hsecond, rfl⟩, rfl, rfl⟩
  have ha : Arguments.ofProcess ["a", "b"] [] = .ok _ := rfl
  obtain ⟨-, -, hstatus, -⟩ := status_tells ha rfl hs ht
  refine ⟨_, s, u.observe, _, ha, rfl, hs, ht, hlength, ?_⟩
  rw [← hfailures]
  exact hstatus (by rw [hfailures]; decide) (by rw [hfailures]; decide)

end CommandLine

end ApiScript
