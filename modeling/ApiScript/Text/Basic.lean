/-! # Texts

White space at the ends of a text, parts of a text, and whole numbers. A whole number is written in
digits, perhaps after a sign; one that does not fit the asked-for range is not read.
-/

namespace ApiScript

/-! ## White space -/

/-- Whether `c` has the property White_Space. -/
def isBlank (c : Char) : Bool :=
  let n := c.toNat
  (9 ≤ n && n ≤ 13) || n == 32 || n == 0x85 || n == 0xA0 || n == 0x1680 ||
    (0x2000 ≤ n && n ≤ 0x200A) || n == 0x2028 || n == 0x2029 || n == 0x202F || n == 0x205F ||
    n == 0x3000

def trimBlanks (cs : List Char) : List Char :=
  ((cs.dropWhile isBlank).reverse.dropWhile isBlank).reverse

/-! ## Parts -/

/-- Whether a list stands in another without a gap. -/
def isPart {α : Type} [BEq α] (part : List α) : List α → Bool
  | [] => part.isEmpty
  | x :: xs => part.isPrefixOf (x :: xs) || isPart part xs

/-! ## Whole numbers -/

def digitValue? (c : Char) : Option Nat :=
  if '0' ≤ c ∧ c ≤ '9' then some (c.toNat - 48)
  else if 'a' ≤ c ∧ c ≤ 'z' then some (c.toNat - 87)
  else if 'A' ≤ c ∧ c ≤ 'Z' then some (c.toNat - 55)
  else none

/-- The number that the digits after `n` make in a base. -/
def digitsValue? (base : Nat) : Nat → List Char → Option Nat
  | n, [] => some n
  | n, c :: cs =>
    match digitValue? c with
    | none => none
    | some d => if d < base then digitsValue? base (n * base + d) cs else none

def naturalOf? (base : Nat) (cs : List Char) : Option Nat :=
  if cs.isEmpty then none else digitsValue? base 0 cs

/-- The number below `2 ^ bits` written in digits, perhaps after a plus sign. -/
def unsignedOf? (base bits : Nat) (cs : List Char) : Option Nat :=
  let digits := match cs with
    | '+' :: rest => rest
    | _ => cs
  (naturalOf? base digits).filter (· < Nat.pow 2 bits)

/-- The number from `-2 ^ (bits - 1)` up to and without `2 ^ (bits - 1)` written in digits, perhaps
after a sign. -/
def signedOf? (base bits : Nat) (cs : List Char) : Option Int :=
  match cs with
  | '-' :: rest =>
    ((naturalOf? base rest).filter (· ≤ Nat.pow 2 (bits - 1))).map fun n => -(n : Int)
  | '+' :: rest => ((naturalOf? base rest).filter (· < Nat.pow 2 (bits - 1))).map Int.ofNat
  | _ => ((naturalOf? base cs).filter (· < Nat.pow 2 (bits - 1))).map Int.ofNat

end ApiScript
