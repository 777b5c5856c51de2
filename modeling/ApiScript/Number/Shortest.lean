import ApiScript.Number.Binary64

/-! # The fewest decimal digits that read back

The numbers that round to a given number form an interval. Among the decimal grids of one, two, and
up to seventeen digits, the first with a point in the interval gives the digits; of two points the
nearer one is taken.
-/

namespace ApiScript

/-- The decimal `digits * 10 ^ scale`, with no trailing zero in `digits`. -/
structure Decimal where
  digits : Nat
  scale : Int
  deriving DecidableEq

namespace Decimal

def trimZeros : Nat → Nat → Int → Decimal
  | 0, digits, scale => ⟨digits, scale⟩
  | fuel + 1, digits, scale =>
    if digits % 10 = 0 ∧ digits ≠ 0 then trimZeros fuel (digits / 10) (scale + 1)
    else ⟨digits, scale⟩

def ofScaled (digits : Nat) (scale : Int) : Decimal := trimZeros 20 digits scale

def text (d : Decimal) : List Char := Nat.toDigits 10 d.digits

def pointAt (d : Decimal) : Int := d.text.length + d.scale

end Decimal

namespace Shortest

/-- The number of digits before the point of `num / den`, negative for zeros after it. -/
def magnitude (num den : Nat) : Int :=
  let rec below : Nat → Nat → Int
    | 0, _ => 0
    | fuel + 1, n => if den ≤ n then 0 else below fuel (n * 10) - 1
  if den ≤ num then (Nat.toDigits 10 (num / den)).length else below 400 (num * 10)

/-- The point of the grid of `10 ^ scale` in the interval that is nearest to `num / den`. -/
def onGrid (num den low high : Nat) (closed : Bool) (scale : Int) : Option Nat :=
  let up := Nat.pow 10 scale.toNat
  let down := Nat.pow 10 (-scale).toNat
  let inside (n : Nat) : Bool :=
    let v := n * up * den
    let l := low * down
    let h := high * down
    if closed then l ≤ v && v ≤ h else l < v && v < h
  let floor := num * down / (den * up)
  match inside floor && floor != 0, inside (floor + 1) with
  | true, false => some floor
  | false, true => some (floor + 1)
  | false, false => none
  | true, true =>
    let toFloor := num * down - floor * up * den
    let toNext := (floor + 1) * up * den - num * down
    if toFloor < toNext then some floor
    else if toNext < toFloor then some (floor + 1)
    else if floor % 2 = 0 then some floor else some (floor + 1)

/-- The grids of `count`, `count + 1` and so on digits, until one has a point in the interval. -/
def search (num den low high : Nat) (closed : Bool) (size : Int) : Nat → Nat → Decimal
  | 0, count => Decimal.ofScaled (num / den) (size - count)
  | fuel + 1, count =>
    match onGrid num den low high closed (size - count) with
    | some n => Decimal.ofScaled n (size - count)
    | none => search num den low high closed size fuel (count + 1)

end Shortest

/-- The size of a finite number in the fewest digits that read back as it. -/
def Binary64.shortest (x : Binary64) : Decimal :=
  if x.isZero then ⟨0, 0⟩
  else
    let m := x.mantissa
    let q := x.exponent - 2
    let up := Nat.pow 2 q.toNat
    let den := Nat.pow 2 (-q).toNat
    let gap := if x.fraction = 0 ∧ 1 < x.exponentField then 1 else 2
    let num := 4 * m * up
    Shortest.search num den ((4 * m - gap) * up) ((4 * m + 2) * up) (m % 2 == 0)
      (Shortest.magnitude num den) 17 1

structure DecimalLayout where
  /-- The least place of the point at which no exponent is written. -/
  leastPoint : Int
  /-- The greatest place of the point at which no exponent is written. -/
  greatestPoint : Int
  pointZero : Bool
  plus : String

def Decimal.render (layout : DecimalLayout) (negative : Bool) (d : Decimal) : String :=
  let digits := d.text
  let point := d.pointAt
  let sign := if negative then "-" else ""
  let fractionless := if layout.pointZero then ".0" else ""
  let zeros (n : Nat) := String.ofList (List.replicate n '0')
  if d.digits = 0 then sign ++ "0" ++ fractionless
  else if layout.leastPoint ≤ point ∧ point ≤ layout.greatestPoint then
    if 0 ≤ d.scale then
      sign ++ String.ofList digits ++ zeros d.scale.toNat ++ fractionless
    else if 0 < point then
      sign ++ String.ofList (digits.take point.toNat) ++ "." ++
        String.ofList (digits.drop point.toNat)
    else sign ++ "0." ++ zeros (-point).toNat ++ String.ofList digits
  else
    let exponent := point - 1
    let mantissa := match digits with
      | [] => ""
      | [c] => String.ofList [c]
      | c :: rest => String.ofList (c :: '.' :: rest)
    let exponentText :=
      if exponent < 0 then "-" ++ toString exponent.natAbs
      else layout.plus ++ toString exponent.natAbs
    sign ++ mantissa ++ "e" ++ exponentText

def Binary64.render (layout : DecimalLayout) (x : Binary64) : String :=
  x.shortest.render layout x.isNegative

end ApiScript
