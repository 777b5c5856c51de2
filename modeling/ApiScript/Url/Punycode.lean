/-! # Labels of hosts in ASCII

The characters of a label that are not in ASCII are taken out, and written behind it as the
differences from one to the next, in the order of their code points.
-/

namespace ApiScript

namespace Punycode

def digit (n : Nat) : Char := if n < 26 then Char.ofNat (97 + n) else Char.ofNat (22 + n)

def threshold (k bias : Nat) : Nat := if k ≤ bias then 1 else if bias + 26 ≤ k then 26 else k - bias

/-- The digits of a difference; the first argument limits their number. -/
def number (bias : Nat) : Nat → Nat → Nat → List Char
  | 0, _, _ => []
  | limit + 1, q, k =>
    let t := threshold k bias
    if q < t then [digit q]
    else digit (t + (q - t) % (36 - t)) :: number bias limit ((q - t) / (36 - t)) (k + 36)

def reduce : Nat → Nat → Nat → Nat
  | 0, delta, k => k + 36 * delta / (delta + 38)
  | limit + 1, delta, k =>
    if 455 < delta then reduce limit (delta / 35) (k + 36) else k + 36 * delta / (delta + 38)

def adapt (delta count : Nat) (isFirst : Bool) : Nat :=
  let delta := if isFirst then delta / 700 else delta / 2
  reduce 64 (delta + delta / count) 0

structure State where
  out : List Char
  delta : Nat
  bias : Nat
  handled : Nat

/-- Passes over a character in the round for the code point `n`. -/
def step (n base : Nat) (s : State) (c : Char) : State :=
  if c.toNat < n then { s with delta := s.delta + 1 }
  else if c.toNat = n then
    { out := s.out ++ number s.bias 64 s.delta 36, delta := 0,
      bias := adapt s.delta (s.handled + 1) (s.handled == base), handled := s.handled + 1 }
  else s

def rounds (label : List Char) (base : Nat) : State → Nat → List Nat → List Char
  | s, _, [] => s.out
  | s, last, n :: rest =>
    let s := { s with delta := s.delta + (n - last) * (s.handled + 1) }
    let s := label.foldl (step n base) s
    rounds label base { s with delta := s.delta + 1 } (n + 1) rest

def insert (n : Nat) : List Nat → List Nat
  | [] => [n]
  | m :: rest => if n < m then n :: m :: rest else if n = m then m :: rest else m :: insert n rest

def encode (label : List Char) : List Char :=
  let basic := label.filter fun c => c.toNat < 128
  let others := (label.filter fun c => 128 ≤ c.toNat).foldl (fun acc c => insert c.toNat acc) []
  let start := if basic.isEmpty then [] else basic ++ ['-']
  rounds label basic.length ⟨start, 0, 72, basic.length⟩ 128 others

end Punycode

end ApiScript
