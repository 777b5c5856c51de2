import ApiScript.Http
import ApiScript.Script.Basic

/-! # Calls, and the count of failed assertions

The count is kept beside the history: a failure counts from when it is signalled.
-/

namespace ApiScript

/-! ## Records of script runs -/

structure AssertionFailure where
  assertion : String
  message : String

structure Call where
  /-- The script that ran, with its templates merged in. -/
  script : Script
  request : Option Request
  response : Option Response
  failures : List AssertionFailure
  milliseconds : Nat

namespace Call

def passed (c : Call) : Bool := c.failures.isEmpty

end Call

/-! ## The history -/

structure Ledger where
  calls : List Call
  failedAssertions : Nat

namespace Ledger

def empty : Ledger := ⟨[], 0⟩

instance : Inhabited Ledger := ⟨empty⟩

def push (l : Ledger) (c : Call) : Ledger := { l with calls := l.calls ++ [c] }

def size (l : Ledger) : Nat := l.calls.length

def increment (l : Ledger) : Ledger := { l with failedAssertions := l.failedAssertions + 1 }

def resetCount (l : Ledger) : Ledger := { l with failedAssertions := 0 }

def recordedFailures (l : Ledger) : Nat :=
  l.calls.foldr (fun c n => c.failures.length + n) 0

end Ledger

end ApiScript
