import ApiScript.Proofs.Inheritance.Ordering
import ApiScript.Proofs.Session.Outcome
import ApiScript.Proofs.Session.Reordering

/-! # What a run makes of its assertions

Each assertion that a run comes to is judged by itself and in its turn. What fails is told in the
record of the run, in order, and the script passes if nothing does. The first assertion that comes
to a fault is all that is told of a run.
-/

namespace ApiScript

variable {host : Host} {script script' : Script} {s t w : Session} {call : CallContext} {f : Fault}

namespace Execution

variable {items items' : List Json} {m : Script}

namespace Check

/-- What is told of the items of a list of assertions, each by itself. -/
def told (s : Session) (call : CallContext) (items : List Json) : List AssertionFailure :=
  items.flatMap fun item => (ofItem item).filterMap (failure? s call "assert")

end Check

def judged (s : Session) (call : CallContext) : Call :=
  ⟨call.script, call.request, call.response, Check.told s call (call.script.list "assert"), 0⟩

namespace Judges

end Judges

end Execution

end ApiScript
