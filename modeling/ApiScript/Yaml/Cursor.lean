/-! # Places in a YAML text -/

namespace ApiScript

namespace Yaml

def isBreak (c : Char) : Bool :=
  c == '\n' || c == '\r' || c == '\u0085' || c == '\u2028' || c == '\u2029'

def isGap (c : Char) : Bool := c == ' ' || c == '\t'

def isAllowed (c : Char) : Bool :=
  let n := c.toNat
  n == 9 || n == 10 || n == 13 || (0x20 ≤ n && n ≤ 0x7E) || n == 0x85 ||
    (0xA0 ≤ n && n ≤ 0xFFFD) || 0x10000 ≤ n

def isWordPart (c : Char) : Bool := c.isAlphanum || c == '_' || c == '-'

/-- A place in a text: what follows, and how many characters and lines come before. -/
structure Cursor where
  rest : List Char
  index : Nat
  line : Nat
  column : Nat

namespace Cursor

def start (cs : List Char) : Cursor := ⟨cs, 0, 0, 0⟩

def next? (c : Cursor) : Option Char := c.rest.head?

def at? (c : Cursor) (n : Nat) : Option Char := c.rest[n]?

def skip (c : Cursor) : Cursor := ⟨c.rest.drop 1, c.index + 1, c.line, c.column + 1⟩

def skipMany (c : Cursor) (n : Nat) : Cursor :=
  ⟨c.rest.drop n, c.index + n, c.line, c.column + n⟩

/-- Moves on to the next line; a carriage return and a line feed end one line together. -/
def skipBreak (c : Cursor) : Cursor :=
  match c.rest with
  | '\r' :: '\n' :: rest => ⟨rest, c.index + 2, c.line + 1, 0⟩
  | _ :: rest => ⟨rest, c.index + 1, c.line + 1, 0⟩
  | [] => c

def breakText (c : Cursor) : List Char :=
  match c.rest with
  | [] => []
  | b :: _ => if b = '\u2028' ∨ b = '\u2029' then [b] else ['\n']

def isAtBreak (c : Cursor) : Bool := c.next?.any isBreak

def isAtGap (c : Cursor) : Bool := c.next?.any isGap

def isOpenAt (c : Cursor) (n : Nat) : Bool := (c.at? n).all fun x => isGap x || isBreak x

def isAt (c : Cursor) (x : Char) : Bool := c.next? == some x

/-- Whether a mark between documents stands here. -/
def isAtMark (c : Cursor) : Bool :=
  c.column == 0 && (c.rest.take 3 == ['-', '-', '-'] || c.rest.take 3 == ['.', '.', '.']) &&
    c.isOpenAt 3

def skipWhile (c : Cursor) (p : Char → Bool) : Cursor :=
  c.skipMany (c.rest.takeWhile p).length

def skipLine (c : Cursor) : Cursor := c.skipWhile fun x => !isBreak x

end Cursor

end Yaml

end ApiScript
