import ApiScript.Cel.Basic
import ApiScript.Cel.Duration
import ApiScript.Cel.Timestamp
import ApiScript.Json.Basic
import ApiScript.Text.Encoding

/-! # Values of expressions

Values of JSON become values of expressions, whole numbers that are not negative as unsigned ones,
and come back unchanged.
-/

namespace ApiScript

namespace Cel

inductive Key where
  | bool (b : Bool)
  | int (n : Int)
  | uint (n : Nat)
  | string (s : String)
  deriving DecidableEq

inductive Value where
  | null
  | bool (b : Bool)
  | int (n : Int)
  | uint (n : Nat)
  | double (x : Binary64)
  | string (s : String)
  | bytes (bs : List UInt8)
  | list (items : List Value)
  | map (entries : List (Key × Value))
  | duration (d : Duration)
  | timestamp (t : Timestamp)
  | nothing
  /-- A value that might have been missing. -/
  | present (v : Value)
  deriving Inhabited

namespace Key

def text : Key → String
  | bool b => if b then "true" else "false"
  | int n => toString n
  | uint n => toString n
  | string s => s

def other? : Key → Option Key
  | int n => if 0 ≤ n then some (uint n.toNat) else none
  | uint n => if n < Nat.pow 2 63 then some (int n) else none
  | _ => none

end Key

def putKey (k : Key) (v : Value) : List (Key × Value) → List (Key × Value)
  | [] => [(k, v)]
  | (k', v') :: rest => if k' = k then (k, v) :: rest else (k', v') :: putKey k v rest

def findKey? (k : Key) : List (Key × Value) → Option Value
  | [] => none
  | (k', v) :: rest => if k' = k then some v else findKey? k rest

/-- The value under a key, or under the same number of the other kind of integers. -/
def lookupKey? (k : Key) (entries : List (Key × Value)) : Option Value :=
  (findKey? k entries).or (k.other?.bind fun k => findKey? k entries)

namespace Value

def ofLiteral : Literal → Value
  | .null => null
  | .bool b => bool b
  | .int n => int n
  | .uint n => uint n
  | .double x => double x
  | .string s => string s
  | .bytes bs => bytes bs

mutual

def ofJson : Json → Value
  | .null => null
  | .bool b => bool b
  | .number (.int n) => if 0 ≤ n then uint n.toNat else int n
  | .number (.float x) => double x.1
  | .string s => string s
  | .array items => list (ofItems items)
  | .object fields => map (ofFields fields)

def ofItems : List Json → List Value
  | [] => []
  | x :: xs => ofJson x :: ofItems xs

def ofFields : List (String × Json) → List (Key × Value)
  | [] => []
  | (n, x) :: xs => (.string n, ofJson x) :: ofFields xs

end

mutual

/-- The value as JSON; a span of time that is too long has none. -/
def toJson? : Value → Option Json
  | null => some .null
  | bool b => some (.bool b)
  | int n => some (.number (.int n))
  | uint n => some (.number (.int n))
  | double x => some (if h : x.isFinite = true then .number (.float ⟨x, h⟩) else .null)
  | string s => some (.string s)
  | bytes bs => some (.string (base64 bs))
  | list items => (itemsToJson? items).map .array
  | map entries => (entriesToJson? entries).map fun fields => .object (Fields.ofList fields)
  | duration d =>
    if -(Nat.pow 2 63) ≤ d.nanoseconds ∧ d.nanoseconds < Nat.pow 2 63 then
      some (.number (.int d.nanoseconds))
    else none
  | timestamp t => some (.string t.render)
  | nothing => some .null
  | present _ => some .null

def itemsToJson? : List Value → Option (List Json)
  | [] => some []
  | x :: xs =>
    match toJson? x, itemsToJson? xs with
    | some y, some ys => some (y :: ys)
    | _, _ => none

def entriesToJson? : List (Key × Value) → Option (List (String × Json))
  | [] => some []
  | (k, x) :: xs =>
    match toJson? x, entriesToJson? xs with
    | some y, some ys => some ((k.text, y) :: ys)
    | _, _ => none

end

end Value

def floatOfInt (n : Int) : Float := if n < 0 then -(Float.ofNat n.natAbs) else Float.ofNat n.natAbs

mutual

/-- Equality of values: numbers of all kinds by value, all else only within one kind. -/
def Value.same : Value → Value → Bool
  | .null, .null => true
  | .bool a, .bool b => a == b
  | .int a, .int b => a == b
  | .int a, .uint b => a == b
  | .uint a, .int b => (a : Int) == b
  | .uint a, .uint b => a == b
  | .int a, .double y => floatOfInt a == y.toFloat
  | .uint a, .double y => floatOfInt a == y.toFloat
  | .double x, .int b => x.toFloat == floatOfInt b
  | .double x, .uint b => x.toFloat == floatOfInt b
  | .double x, .double y => x.toFloat == y.toFloat
  | .string a, .string b => a == b
  | .bytes a, .bytes b => a == b
  | .list xs, .list ys => sameItems xs ys
  | .map xs, .map ys => xs.length == ys.length && sameEntries xs ys
  | .duration a, .duration b => a == b
  | .timestamp a, .timestamp b => a.nanoseconds == b.nanoseconds
  | .nothing, .nothing => true
  | .present a, .present b => a.same b
  | _, _ => false

def sameItems : List Value → List Value → Bool
  | [], [] => true
  | x :: xs, y :: ys => x.same y && sameItems xs ys
  | _, _ => false

def sameEntries : List (Key × Value) → List (Key × Value) → Bool
  | [], _ => true
  | (k, x) :: xs, ys =>
    (match findKey? k ys with
      | some y => x.same y
      | none => false) && sameEntries xs ys

end

def compareFloats (x y : Float) : Option Ordering :=
  if x < y then some .lt else if y < x then some .gt else if x == y then some .eq else none

/-- The order of two values: numbers of all kinds by value; lists, maps, bytes and values of
different kinds have none. -/
def Value.compare? : Value → Value → Option Ordering
  | .null, .null => some .eq
  | .bool a, .bool b => some (compare a b)
  | .int a, .int b => some (compare a b)
  | .int a, .uint b => some (compare a (b : Int))
  | .uint a, .int b => some (compare (a : Int) b)
  | .uint a, .uint b => some (compare a b)
  | .int a, .double y => compareFloats (floatOfInt a) y.toFloat
  | .uint a, .double y => compareFloats (floatOfInt a) y.toFloat
  | .double x, .int b => compareFloats x.toFloat (floatOfInt b)
  | .double x, .uint b => compareFloats x.toFloat (floatOfInt b)
  | .double x, .double y => compareFloats x.toFloat y.toFloat
  | .string a, .string b => some (compare a b)
  | .duration a, .duration b => some (compare a.nanoseconds b.nanoseconds)
  | .timestamp a, .timestamp b => some (compare a.nanoseconds b.nanoseconds)
  | _, _ => none

end Cel

end ApiScript
