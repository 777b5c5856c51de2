import ApiScript.Number.Reading

/-! # Spans of time

A span of time is a number of nanoseconds.
-/

namespace ApiScript

structure Duration where
  nanoseconds : Int
  deriving DecidableEq

namespace Duration

def units : List (String × Nat) :=
  [("ms", 1000000), ("us", 1000), ("ns", 1), ("h", 3600000000000), ("m", 60000000000),
    ("s", 1000000000)]

def truncate (x : Float) : Int :=
  let b := Binary64.ofFloat x
  if b.isNaN then 0
  else if !b.isFinite then (if b.isNegative then -(Nat.pow 2 63) else Nat.pow 2 63 - 1)
  else max (-(Nat.pow 2 63)) (min b.whole (Nat.pow 2 63 - 1))

/-- The exponent that a text begins with: `none` when its letter is not followed by digits. -/
def power? (cs : List Char) : Option (Int × List Char) :=
  match cs with
  | c :: rest =>
    if c = 'e' ∨ c = 'E' then
      let (negative, ds) := match rest with
        | '-' :: ds => (true, ds)
        | '+' :: ds => (false, ds)
        | ds => (false, ds)
      (naturalOf? 10 (ds.takeWhile Char.isDigit)).map fun n =>
        (if negative then -(n : Int) else n, ds.dropWhile Char.isDigit)
    else some (0, cs)
  | [] => some (0, [])

def number? (cs : List Char) : Option (Float × List Char) :=
  let (negative, digits) := match cs with
    | '-' :: rest => (true, rest)
    | '+' :: rest => (false, rest)
    | rest => (false, rest)
  match significandOf? digits with
  | none => none
  | some (n, scale, rest) =>
    (power? rest).map fun (e, rest) =>
      let x := nearestFloat n (scale + e)
      (if negative then -x else x, rest)

def part? (cs : List Char) : Option (Int × List Char) := do
  let (x, rest) ← number? cs
  let (unit, length) ← units.find? fun u => u.1.toList.isPrefixOf rest
  return (truncate (x * Float.ofNat length), rest.drop unit.length)

/-- The sum of the parts that a text begins with; the first argument limits their number. -/
def parts : Nat → Int → List Char → Int
  | 0, sum, _ => sum
  | limit + 1, sum, cs =>
    match part? cs with
    | none => sum
    | some (n, rest) => parts limit (sum + n) rest

/-- Reads a span of time: a sign, and numbers with their units. What follows does not count. -/
def ofText? (text : String) : Option Duration :=
  let (negative, cs) := match text.toList with
    | '-' :: rest => (true, rest)
    | rest => (false, rest)
  if cs = ['0'] then some ⟨0⟩
  else
    (part? cs).map fun (n, rest) =>
      let sum := parts rest.length n rest
      ⟨if negative then -sum else sum⟩

def inUnits (n unit : Nat) : List Char :=
  let width := (Nat.toDigits 10 unit).length - 1
  let ds := Nat.toDigits 10 (n % unit)
  let padded := List.replicate (width - ds.length) '0' ++ ds
  let fraction := if width = 0 then [] else (padded.reverse.dropWhile (· = '0')).reverse
  Nat.toDigits 10 (n / unit) ++ if fraction.isEmpty then [] else '.' :: fraction

/-- Hours, minutes and seconds; a span below a second in a smaller unit. -/
def render (d : Duration) : String :=
  let n := d.nanoseconds.natAbs
  let size :=
    if n = 0 then ['0', 's']
    else if n < 1000 then inUnits n 1 ++ ['n', 's']
    else if n < 1000000 then inUnits n 1000 ++ ['µ', 's']
    else if n < 1000000000 then inUnits n 1000000 ++ ['m', 's']
    else
      let minutes := n / 60000000000
      let hours := minutes / 60
      (if hours = 0 then [] else Nat.toDigits 10 hours ++ ['h']) ++
        (if minutes = 0 then [] else Nat.toDigits 10 (minutes % 60) ++ ['m']) ++
        inUnits (n % 60000000000) 1000000000 ++ ['s']
  String.ofList (if d.nanoseconds < 0 then '-' :: size else size)

end Duration

end ApiScript
