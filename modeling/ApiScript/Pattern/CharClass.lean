import ApiScript.Text.Basic
import ApiScript.Text.Character

/-! # Classes of characters -/

namespace ApiScript

def caseVariants (c : Char) : List Char :=
  let n := c.toNat
  let shifted (first last : Nat) (distance : Nat) : List Char :=
    if first ≤ n ∧ n ≤ last then [Char.ofNat (n + distance)]
    else if first + distance ≤ n ∧ n ≤ last + distance then [Char.ofNat (n - distance)]
    else []
  let special : List (List Nat) :=
    [[0x4B, 0x6B, 0x212A], [0x53, 0x73, 0x17F], [0xB5, 0x39C, 0x3BC], [0xC5, 0xE5, 0x212B],
      [0x3A3, 0x3C2, 0x3C3], [0xFF, 0x178], [0xDF, 0x1E9E]]
  shifted 0x41 0x5A 32 ++
    (if n = 0xD7 ∨ n = 0xF7 then [] else shifted 0xC0 0xDE 32) ++
    (if n = 0x3A2 then [] else shifted 0x391 0x3AB 32) ++
    shifted 0x410 0x42F 32 ++ shifted 0x400 0x40F 80 ++
    (special.filter (·.contains n)).flatMap fun ns => (ns.filter (· ≠ n)).map Char.ofNat

inductive CharClass where
  | empty
  | range (first last : Char)
  /-- The characters that are in a range in one of their cases. -/
  | foldedRange (first last : Char)
  | digit
  | word
  | blank
  | union (a b : CharClass)
  | both (a b : CharClass)
  | complement (a : CharClass)

namespace CharClass

def contains : CharClass → Char → Bool
  | empty, _ => false
  | range first last, c => first ≤ c && c ≤ last
  | foldedRange first last, c =>
    (c :: caseVariants c).any fun v => first ≤ v && v ≤ last
  | digit, c => isDecimalDigit c
  | word, c => isWordChar c
  | blank, c => isBlank c
  | union a b, c => a.contains c || b.contains c
  | both a b, c => a.contains c && b.contains c
  | complement a, c => !a.contains c

def any : CharClass := complement empty

def unionAll (classes : List CharClass) : CharClass := classes.foldl union empty

def ofRanges (ranges : List (Char × Char)) : CharClass :=
  unionAll (ranges.map fun r => range r.1 r.2)

/-- The classes with a name inside brackets, all within ASCII. -/
def named : List (String × CharClass) :=
  let lower := ('a', 'z')
  let upper := ('A', 'Z')
  let digits := ('0', '9')
  [("alnum", ofRanges [digits, upper, lower]),
    ("alpha", ofRanges [upper, lower]),
    ("ascii", ofRanges [('\x00', '\x7f')]),
    ("blank", ofRanges [('\t', '\t'), (' ', ' ')]),
    ("cntrl", ofRanges [('\x00', '\x1f'), ('\x7f', '\x7f')]),
    ("digit", ofRanges [digits]),
    ("graph", ofRanges [('!', '~')]),
    ("lower", ofRanges [lower]),
    ("print", ofRanges [(' ', '~')]),
    ("punct", ofRanges [('!', '/'), (':', '@'), ('[', '\x60'), ('\x7b', '~')]),
    ("space", ofRanges [('\t', '\r'), (' ', ' ')]),
    ("upper", ofRanges [upper]),
    ("word", ofRanges [digits, upper, ('_', '_'), lower]),
    ("xdigit", ofRanges [digits, ('A', 'F'), ('a', 'f')])]

def ofName? (name : List Char) : Option CharClass :=
  (named.find? fun e => e.1.toList = name).map (·.2)

end CharClass

end ApiScript
