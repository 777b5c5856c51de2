/-! # Numbers in the 64-bit binary format

A number is kept as its bits, so that equality of the data is decidable and the digits of its text
can be found in exact arithmetic.
-/

namespace ApiScript

structure Binary64 where
  bits : UInt64
  deriving DecidableEq

namespace Binary64

def ofFloat (x : Float) : Binary64 := ⟨x.toBits⟩

def toFloat (x : Binary64) : Float := Float.ofBits x.bits

/-- Eleven bits: 0 for numbers below the normal ones, 2047 for infinities and what is no number. -/
def exponentField (x : Binary64) : Nat := x.bits.toNat / Nat.pow 2 52 % 2048

def fraction (x : Binary64) : Nat := x.bits.toNat % Nat.pow 2 52

def isNegative (x : Binary64) : Bool := x.bits.toNat / Nat.pow 2 63 % 2 == 1

def isFinite (x : Binary64) : Bool := x.exponentField != 2047

def isZero (x : Binary64) : Bool := x.bits.toNat % Nat.pow 2 63 == 0

def isNaN (x : Binary64) : Bool := x.exponentField == 2047 && x.fraction != 0

/-- Equality of two finite numbers as numbers: the two zeros are equal. -/
def same (x y : Binary64) : Bool := x.bits == y.bits || (x.isZero && y.isZero)

/-- The integer `m` in `m * 2 ^ q`, the size of a finite number. -/
def mantissa (x : Binary64) : Nat :=
  if x.exponentField = 0 then x.fraction else Nat.pow 2 52 + x.fraction

/-- The exponent `q` in `m * 2 ^ q`, the size of a finite number. -/
def exponent (x : Binary64) : Int :=
  if x.exponentField = 0 then -1074 else (x.exponentField : Int) - 1075

def whole (x : Binary64) : Int :=
  let size :=
    if 0 ≤ x.exponent then x.mantissa * Nat.pow 2 x.exponent.toNat
    else x.mantissa / Nat.pow 2 (-x.exponent).toNat
  if x.isNegative then -(size : Int) else size

end Binary64

abbrev FiniteNumber := { x : Binary64 // x.isFinite = true }

def FiniteNumber.ofFloat? (x : Float) : Option FiniteNumber :=
  if h : (Binary64.ofFloat x).isFinite = true then some ⟨_, h⟩ else none

end ApiScript
