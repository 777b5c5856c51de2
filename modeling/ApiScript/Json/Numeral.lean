import ApiScript.Json.Basic

/-! # Reading numbers

A numeral without point and exponent that fits 64 bits, signed or unsigned, is an integer. Every
other numeral is a binary number: of its digits as many as fit 64 bits are kept, and what they make
is multiplied or divided once by a power of ten. So the last bit may differ from the nearest
number's.
-/

namespace ApiScript

structure Numeral where
  negative : Bool
  whole : List Char
  fraction : Option (List Char)
  exponent : Option (Bool × List Char)

namespace Numeral

def ofText? (cs : List Char) : Option Numeral :=
  let (negative, cs) := match cs with
    | '-' :: rest => (true, rest)
    | _ => (false, cs)
  let whole := cs.takeWhile Char.isDigit
  let cs := cs.dropWhile Char.isDigit
  if whole.isEmpty || (whole.head? == some '0' && 1 < whole.length) then none
  else
    let (fraction, cs) := match cs with
      | '.' :: rest => (some (rest.takeWhile Char.isDigit), rest.dropWhile Char.isDigit)
      | _ => (none, cs)
    if fraction == some [] then none
    else
      let after (rest : List Char) : Option (Bool × List Char) :=
        match rest with
        | '+' :: ds => some (false, ds)
        | '-' :: ds => some (true, ds)
        | ds => some (false, ds)
      let (exponent, cs) := match cs with
        | 'e' :: rest => (after rest, [])
        | 'E' :: rest => (after rest, [])
        | _ => (none, cs)
      let exponentOk := match exponent with
        | none => true
        | some (_, ds) => !ds.isEmpty && ds.all Char.isDigit
      if cs.isEmpty && exponentOk then some ⟨negative, whole, fraction, exponent⟩ else none

def digit (c : Char) : Nat := c.toNat - 48

def greatestWord : Nat := Nat.pow 2 64 - 1

/-- The number made of as many digits as fit a word, and the digits that do not fit. -/
def keepWhole : Nat → List Char → Nat × List Char
  | n, [] => (n, [])
  | n, c :: cs =>
    if n * 10 + digit c ≤ greatestWord then keepWhole (n * 10 + digit c) cs else (n, c :: cs)

/-- Continues a number with the digits after the point, as long as they fit a word; the second
part counts them. -/
def keepFraction : Nat → Nat → List Char → Nat × Nat
  | n, used, [] => (n, used)
  | n, used, c :: cs =>
    if n * 10 + digit c ≤ greatestWord then keepFraction (n * 10 + digit c) (used + 1) cs
    else (n, used)

def powerOfTen (n : Nat) : Float := Float.ofScientific 1 false n

/-- `x * 10 ^ exponent`, with at most three divisions, after which nothing is left of a word. -/
def scaled : Nat → Float → Int → Option Float
  | fuel, x, exponent =>
    if exponent.natAbs ≤ 308 then
      if 0 ≤ exponent then
        let y := x * powerOfTen exponent.natAbs
        if y.isInf then none else some y
      else some (x / powerOfTen exponent.natAbs)
    else if x == 0 then some x
    else if 0 ≤ exponent then none
    else match fuel with
      | 0 => some 0
      | fuel + 1 => scaled fuel (x / powerOfTen 308) (exponent + 308)

/-- The greatest exponent that is added up; a greater one is as good as infinite. -/
def greatestExponent : Nat := Nat.pow 2 31 - 1

def toFloat? (n : Numeral) : Option Float :=
  let (word, left) := keepWhole 0 n.whole
  let (word, used) := match n.fraction with
    | none => (word, 0)
    | some ds => keepFraction word 0 ds
  let start : Int := (left.length : Int) - used
  let size : Option Float := match n.exponent with
    | none => scaled 3 (UInt64.ofNat word).toFloat start
    | some (down, ds) =>
      let e := ds.foldl (fun acc c => acc * 10 + digit c) 0
      if greatestExponent < e then
        if word ≠ 0 ∧ down = false then none else some 0
      else scaled 3 (UInt64.ofNat word).toFloat (if down then start - e else start + e)
  size.map fun x => if n.negative then -x else x

def toNumber? (n : Numeral) : Option JsonNumber :=
  let asFloat := n.toFloat?.bind fun x => (FiniteNumber.ofFloat? x).map JsonNumber.float
  if n.fraction.isNone && n.exponent.isNone then
    match keepWhole 0 n.whole with
    | (word, []) =>
      if n.negative = false then some (.int word)
      else if word ≠ 0 ∧ word ≤ Nat.pow 2 63 then some (.int (-word))
      else asFloat
    | _ => asFloat
  else asFloat

end Numeral

def JsonNumber.ofText? (cs : List Char) : Option JsonNumber :=
  (Numeral.ofText? cs).bind Numeral.toNumber?

end ApiScript
