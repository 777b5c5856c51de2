import ApiScript.Number.Binary64
import ApiScript.Table

/-! # JSON values

Integers are kept apart from numbers with a fraction or an exponent: `1` and `1.0` are different
values. The fields of an object stand in the order of their names.
-/

namespace ApiScript

/-- A number: an integer, which reading keeps within 64 bits, or a finite binary number. -/
inductive JsonNumber where
  | int (n : Int)
  | float (x : FiniteNumber)
  deriving DecidableEq

namespace JsonNumber

/-- Equality of numbers: integers by value, binary numbers by value, never across. -/
def same : JsonNumber → JsonNumber → Bool
  | .int m, .int n => m == n
  | .float x, .float y => x.1.same y.1
  | _, _ => false

def isZero : JsonNumber → Bool
  | .int n => n == 0
  | .float x => x.1.isZero

end JsonNumber

inductive Json where
  | null
  | bool (b : Bool)
  | number (n : JsonNumber)
  | string (s : String)
  | array (items : List Json)
  | object (fields : List (String × Json))
  deriving Inhabited

namespace Json

abbrev ofNat (n : Nat) : Json := .number (.int n)

mutual

/-- Equality of values: objects as sets of named values, lists item by item. -/
def same : Json → Json → Bool
  | .null, .null => true
  | .bool a, .bool b => a == b
  | .number m, .number n => m.same n
  | .string s, .string t => s == t
  | .array xs, .array ys => sameItems xs ys
  | .object xs, .object ys => sameFields xs ys
  | _, _ => false

def sameItems : List Json → List Json → Bool
  | [], [] => true
  | x :: xs, y :: ys => same x y && sameItems xs ys
  | _, _ => false

def sameFields : List (String × Json) → List (String × Json) → Bool
  | [], [] => true
  | (m, x) :: xs, (n, y) :: ys => m == n && same x y && sameFields xs ys
  | _, _ => false

end

/-- Whether a value counts as true: `false`, `null`, zero and what is empty do not. -/
def isTruthy : Json → Bool
  | .null => false
  | .bool b => b
  | .number n => !n.isZero
  | .string s => !s.isEmpty
  | .array items => !items.isEmpty
  | .object fields => !fields.isEmpty

def field? (name : String) : Json → Option Json
  | .object fields => Fields.get? name fields
  | _ => none

mutual

/-- The value with the fields of every object put into order; of fields with one name the last
stays. -/
def normalise : Json → Json
  | .array items => .array (normaliseItems items)
  | .object fields => .object (Fields.ofList (normaliseFields fields))
  | other => other

def normaliseItems : List Json → List Json
  | [] => []
  | x :: xs => normalise x :: normaliseItems xs

def normaliseFields : List (String × Json) → List (String × Json)
  | [] => []
  | (n, x) :: xs => (n, normalise x) :: normaliseFields xs

end

end Json

end ApiScript
