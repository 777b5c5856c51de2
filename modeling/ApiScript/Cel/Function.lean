import ApiScript.Cel.Arithmetic
import ApiScript.Number.Shortest
import ApiScript.Pattern.Parser
import ApiScript.Text.Encoding

/-! # Functions of expressions

A function takes its operands from the arguments, or the first of them from the receiver of the
call. Arguments beyond those are not looked at.
-/

namespace ApiScript

namespace Cel

/-- Where a function takes its operands from. -/
inductive Operands where
  | withReceiver (count : Nat)
  | ofArguments (count : Nat)
  | allArguments

namespace Function

def operands? : String → Option Operands
  | "size" => some (.withReceiver 1)
  | "contains" => some (.withReceiver 2)
  | "startsWith" => some (.withReceiver 2)
  | "endsWith" => some (.withReceiver 2)
  | "matches" => some (.withReceiver 2)
  | "string" => some (.withReceiver 1)
  | "int" => some (.withReceiver 1)
  | "uint" => some (.withReceiver 1)
  | "double" => some (.withReceiver 1)
  | "getFullYear" => some (.withReceiver 1)
  | "getMonth" => some (.withReceiver 1)
  | "getDayOfYear" => some (.withReceiver 1)
  | "getDayOfMonth" => some (.withReceiver 1)
  | "getDate" => some (.withReceiver 1)
  | "getDayOfWeek" => some (.withReceiver 1)
  | "getHours" => some (.withReceiver 1)
  | "getMinutes" => some (.withReceiver 1)
  | "getSeconds" => some (.withReceiver 1)
  | "getMilliseconds" => some (.withReceiver 1)
  | "hasValue" => some (.withReceiver 1)
  | "value" => some (.withReceiver 1)
  | "or" => some (.withReceiver 2)
  | "orValue" => some (.withReceiver 2)
  | "bytes" => some (.ofArguments 1)
  | "duration" => some (.ofArguments 1)
  | "timestamp" => some (.ofArguments 1)
  | "optional.none" => some (.ofArguments 0)
  | "optional.of" => some (.ofArguments 1)
  | "optional.ofNonZeroValue" => some (.ofArguments 1)
  | "compare" => some (.ofArguments 2)
  | "type_of" => some (.ofArguments 1)
  | "urlencode" => some (.ofArguments 1)
  | "max" => some .allArguments
  | "min" => some .allArguments
  | _ => none

def size? : Value → Option Value
  | .string s => some (.int s.utf8ByteSize)
  | .bytes bs => some (.int bs.length)
  | .list items => some (.int items.length)
  | .map entries => some (.int entries.length)
  | _ => none

def contains? : Value → Value → Option Value
  | .list items, v => some (.bool (items.any v.same))
  | .map entries, v => v.key?.map fun k => .bool (findKey? k entries).isSome
  | .string a, .string b => some (.bool (isPart b.toList a.toList))
  | .bytes a, .bytes b => some (.bool (isPart b a))
  | _, _ => some (.bool false)

def plainDecimals : DecimalLayout where
  leastPoint := -400
  greatestPoint := 400
  pointZero := false
  plus := ""

def floatText (x : Binary64) : String :=
  if x.isNaN then "NaN"
  else if !x.isFinite then (if x.isNegative then "-inf" else "inf")
  else x.render plainDecimals

def string? : Value → Option Value
  | .string s => some (.string s)
  | .int n => some (.string (toString n))
  | .uint n => some (.string (toString n))
  | .double x => some (.string (floatText x))
  | .bytes bs => some (.string (textOfBytes bs))
  | .duration d => some (.string d.render)
  | .timestamp t => some (.string t.render)
  | _ => none

/-- The whole part of a number from one bound to another; what is no number counts as zero. -/
def wholeBetween? (least greatest : Int) (x : Binary64) : Option Int :=
  if x.isNaN then some 0
  else if x.isFinite ∧ floatOfInt least ≤ x.toFloat ∧ x.toFloat ≤ floatOfInt greatest then
    some (min x.whole greatest)
  else none

def toInt? : Value → Option Value
  | .string s => (signedOf? 10 64 s.toList).map .int
  | .double x => (wholeBetween? (-(Nat.pow 2 63)) (Nat.pow 2 63 - 1) x).map .int
  | .int n => some (.int n)
  | .uint n => int? n
  | _ => none

def toUint? : Value → Option Value
  | .string s => (unsignedOf? 10 64 s.toList).map .uint
  | .double x => (wholeBetween? 0 (Nat.pow 2 64 - 1) x).map fun n => .uint n.toNat
  | .int n => uint? n
  | .uint n => some (.uint n)
  | _ => none

def toDouble? : Value → Option Value
  | .string s => (floatOf? s.toList).map ofFloat
  | .double x => some (.double x)
  | .int n => some (ofFloat (floatOfInt n))
  | .uint n => some (ofFloat (floatOfInt n))
  | _ => none

def matches? : Value → Value → Option Value
  | .string s, .string p => (Pattern.ofText? p).map fun p => .bool (p.matchesIn s)
  | _, _ => none

/-- A part of a point in time, by the clock of the point. -/
def timePart? (name : String) (t : Timestamp) : Option Int :=
  match name with
  | "getFullYear" => some t.date.year
  | "getMonth" => some (t.date.month - 1 : Nat)
  | "getDayOfYear" => some t.dayOfYear
  | "getDayOfMonth" => some (t.date.day - 1 : Nat)
  | "getDate" => some t.date.day
  | "getDayOfWeek" => some t.dayOfWeek
  | "getHours" => some (t.secondOfDay / 3600 : Nat)
  | "getMinutes" => some (t.secondOfDay / 60 % 60 : Nat)
  | "getSeconds" => some (t.secondOfDay % 60 : Nat)
  | "getMilliseconds" => some (t.subsecond / 1000000 : Nat)
  | _ => none

def isZero : Value → Bool
  | .null => true
  | .bool b => !b
  | .int n => n == 0
  | .uint n => n == 0
  | .double x => x.isZero
  | .string s => s.isEmpty
  | .bytes bs => bs.isEmpty
  | .list items => items.isEmpty
  | .map entries => entries.isEmpty
  | .duration d => d.nanoseconds == 0
  | _ => false

def kind : Value → String
  | .null => "null"
  | .bool _ => "bool"
  | .int _ => "int"
  | .uint _ => "uint"
  | .double _ => "double"
  | .string _ => "string"
  | .bytes _ => "bytes"
  | .list _ => "list"
  | .map _ => "map"
  | _ => "unknown"

/-- The best of some values: each one takes the place of the best so far unless that is better. -/
def bestFrom? (better : Ordering) : Value → List Value → Option Value
  | best, [] => some best
  | best, v :: rest =>
    match best.compare? v with
    | none => none
    | some o => bestFrom? better (if o = better then best else v) rest

def best? (better : Ordering) : List Value → Option Value
  | [.list []] => some .null
  | [.list (v :: rest)] => bestFrom? better v rest
  | [] => some .null
  | v :: rest => bestFrom? better v rest

def result? (name : String) (operands : List Value) : Option Value :=
  match name, operands with
  | "size", [v] => size? v
  | "contains", [v, part] => contains? v part
  | "startsWith", [.string s, .string t] => some (.bool (t.toList.isPrefixOf s.toList))
  | "endsWith", [.string s, .string t] => some (.bool (t.toList.isSuffixOf s.toList))
  | "matches", [s, p] => matches? s p
  | "string", [v] => string? v
  | "int", [v] => toInt? v
  | "uint", [v] => toUint? v
  | "double", [v] => toDouble? v
  | "hasValue", [.nothing] => some (.bool false)
  | "hasValue", [.present _] => some (.bool true)
  | "value", [.present v] => some v
  | "or", [.nothing, .nothing] => some .nothing
  | "or", [.nothing, .present v] => some (.present v)
  | "or", [.present v, .nothing] => some (.present v)
  | "or", [.present v, .present _] => some (.present v)
  | "orValue", [.nothing, v] => some v
  | "orValue", [.present v, _] => some v
  | "bytes", [.string s] => some (.bytes s.toUTF8.toList)
  | "duration", [.string s] => (Duration.ofText? s).map .duration
  | "timestamp", [.string s] => (Timestamp.ofText? s).map .timestamp
  | "optional.none", [] => some .nothing
  | "optional.of", [v] => some (.present v)
  | "optional.ofNonZeroValue", [v] => some (if isZero v then .nothing else .present v)
  | "compare", [a, b] => some (.bool (a.same b))
  | "type_of", [v] => some (.string (kind v))
  | "urlencode", [.string s] => some (.string (formEncode s))
  | "max", vs => best? .gt vs
  | "min", vs => best? .lt vs
  | _, [.timestamp t] => (timePart? name t).map .int
  | _, _ => none

end Function

end Cel

end ApiScript
