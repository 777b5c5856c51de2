import ApiScript.Number.Binary64
import ApiScript.Text.Basic

/-! # Reading decimal numbers

A decimal number is rounded once, to the nearest number in the 64-bit binary format.
-/

namespace ApiScript

def nearestFloat (digits : Nat) (scale : Int) : Float :=
  let size := (Nat.toDigits 10 digits).length + scale
  if digits = 0 then 0
  else if 310 < size then 1.0 / 0.0
  else if size < -330 then 0
  else if scale < 0 then Float.ofScientific digits true scale.natAbs
  else Float.ofScientific digits false scale.natAbs

/-- The number before the exponent: digits with at most one point, and at least one digit. -/
def significandOf? (cs : List Char) : Option (Nat × Int × List Char) :=
  let whole := cs.takeWhile Char.isDigit
  let (fraction, rest) := match cs.dropWhile Char.isDigit with
    | '.' :: after => (after.takeWhile Char.isDigit, after.dropWhile Char.isDigit)
    | after => ([], after)
  (naturalOf? 10 (whole ++ fraction)).map fun n => (n, -(fraction.length : Int), rest)

def exponentOf? (cs : List Char) : Option Int :=
  match cs with
  | '-' :: ds => (naturalOf? 10 ds).map fun n => -(n : Int)
  | '+' :: ds => (naturalOf? 10 ds).map Int.ofNat
  | ds => (naturalOf? 10 ds).map Int.ofNat

def unsignedFloatOf? (cs : List Char) : Option Float := do
  let (n, scale, rest) ← significandOf? cs
  match rest with
  | [] => some (nearestFloat n scale)
  | c :: ds =>
    if c = 'e' ∨ c = 'E' then (exponentOf? ds).map fun e => nearestFloat n (scale + e) else none

/-- The names of what is no finite number, in whatever case. -/
def namedFloatOf? (cs : List Char) : Option Float :=
  let name := cs.map Char.toLower
  if name = "inf".toList ∨ name = "infinity".toList then some (1.0 / 0.0)
  else if name = "nan".toList then some (0.0 / 0.0)
  else none

def floatOf? (cs : List Char) : Option Float :=
  let unsigned (cs : List Char) := (unsignedFloatOf? cs).or (namedFloatOf? cs)
  match cs with
  | '-' :: rest => (unsigned rest).map fun x => -x
  | '+' :: rest => unsigned rest
  | _ => unsigned cs

end ApiScript
