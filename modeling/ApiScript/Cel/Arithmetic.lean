import ApiScript.Cel.Value
import ApiScript.Text.Basic
import ApiScript.Text.Encoding

/-! # Operators on values -/

namespace ApiScript

namespace Cel

def int? (n : Int) : Option Value :=
  if -(Nat.pow 2 63) ≤ n ∧ n < Nat.pow 2 63 then some (.int n) else none

def uint? (n : Int) : Option Value :=
  if 0 ≤ n ∧ n < Nat.pow 2 64 then some (.uint n.toNat) else none

def ofFloat (x : Float) : Value := .double (Binary64.ofFloat x)

namespace Value

def add? : Value → Value → Option Value
  | int a, int b => int? (a + b)
  | uint a, uint b => uint? (a + b)
  | double x, double y => some (ofFloat (x.toFloat + y.toFloat))
  | string a, string b => some (string (a ++ b))
  | list xs, list ys => some (list (xs ++ ys))
  | duration a, duration b => some (duration ⟨a.nanoseconds + b.nanoseconds⟩)
  | timestamp t, duration d => (t.move? d.nanoseconds).map timestamp
  | duration d, timestamp t => (t.move? d.nanoseconds).map timestamp
  | _, _ => none

def subtract? : Value → Value → Option Value
  | int a, int b => int? (a - b)
  | uint a, uint b => uint? (a - b)
  | double x, double y => some (ofFloat (x.toFloat - y.toFloat))
  | duration a, duration b => some (duration ⟨a.nanoseconds - b.nanoseconds⟩)
  | timestamp t, duration d => (t.move? (-d.nanoseconds)).map timestamp
  | timestamp a, timestamp b => some (duration ⟨a.nanoseconds - b.nanoseconds⟩)
  | _, _ => none

def multiply? : Value → Value → Option Value
  | int a, int b => int? (a * b)
  | uint a, uint b => uint? (a * b)
  | double x, double y => some (ofFloat (x.toFloat * y.toFloat))
  | _, _ => none

/-- Division of integers goes toward zero. -/
def divide? : Value → Value → Option Value
  | int a, int b => if b = 0 then none else int? (a.tdiv b)
  | uint a, uint b => if b = 0 then none else some (uint (a / b))
  | double x, double y => some (ofFloat (x.toFloat / y.toFloat))
  | _, _ => none

/-- The remainder of integers has the sign of the dividend. -/
def remainder? : Value → Value → Option Value
  | int a, int b => if b = 0 ∨ (a = -(Nat.pow 2 63) ∧ b = -1) then none else some (int (a.tmod b))
  | uint a, uint b => if b = 0 then none else some (uint (a % b))
  | _, _ => none

def negate? : Value → Option Value
  | int a => int? (-a)
  | double x => some (ofFloat (-x.toFloat))
  | _ => none

def not? : Value → Option Value
  | bool b => some (bool !b)
  | _ => none

def key? : Value → Option Key
  | bool b => some (.bool b)
  | int n => some (.int n)
  | uint n => some (.uint n)
  | string s => some (.string s)
  | _ => none

def isIn? : Value → Value → Option Value
  | string a, string b => some (bool (isPart a.toList b.toList))
  | v, list items => some (bool (items.any v.same))
  | v, map entries => some (bool (v.key?.any fun k => (findKey? k entries).isSome))
  | _, _ => none

def index? : Value → Value → Option Value
  | list items, int n => if n < 0 then none else items[n.toNat]?
  | list items, uint n => items[n]?
  | map entries, v => v.key?.bind fun k => lookupKey? k entries
  | _, _ => none

def field? (name : String) : Value → Option Value
  | map entries => lookupKey? (.string name) entries
  | _ => none

def hasField (name : String) : Value → Bool
  | map entries => entries.any fun e => e.1.text == name
  | _ => false

/-- Whether one value stands to another in an order; there has to be an order of the two. -/
def ordered? (accepts : Ordering → Bool) (a b : Value) : Option Value :=
  (a.compare? b).map fun o => bool (accepts o)

end Value

def BinaryOp.act? (op : BinaryOp) (a b : Value) : Option Value :=
  match op with
  | .or => none
  | .and => none
  | .equal => some (.bool (a.same b))
  | .notEqual => some (.bool !(a.same b))
  | .less => Value.ordered? (· == .lt) a b
  | .lessEqual => Value.ordered? (· != .gt) a b
  | .greater => Value.ordered? (· == .gt) a b
  | .greaterEqual => Value.ordered? (· != .lt) a b
  | .isIn => a.isIn? b
  | .add => a.add? b
  | .subtract => a.subtract? b
  | .multiply => a.multiply? b
  | .divide => a.divide? b
  | .remainder => a.remainder? b
  | .index => a.index? b

def UnaryOp.act? : UnaryOp → Value → Option Value
  | .not, v => v.not?
  | .negate, v => v.negate?

end Cel

end ApiScript
