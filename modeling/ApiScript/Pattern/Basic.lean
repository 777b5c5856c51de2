import ApiScript.Pattern.CharClass

/-! # Patterns

A pattern matches parts of a text. Whether it matches is decided by following all its ways through
the text at once: a set of places is a list of Booleans, one for each place, from the one before the
first character to the one after the last.
-/

namespace ApiScript

inductive Look where
  | textStart
  | textEnd
  | lineStart
  | lineEnd
  | wordBoundary
  | notWordBoundary
  | wordStart
  | wordEnd
  | notAfterWord
  | notBeforeWord

/-- Whether the condition holds between two characters, of which each may be missing. -/
def Look.holds (l : Look) (before after : Option Char) : Bool :=
  let wordBefore := before.any isWordChar
  let wordAfter := after.any isWordChar
  match l with
  | textStart => before.isNone
  | textEnd => after.isNone
  | lineStart => before.all (· == '\n')
  | lineEnd => after.all (· == '\n')
  | wordBoundary => wordBefore != wordAfter
  | notWordBoundary => wordBefore == wordAfter
  | wordStart => !wordBefore && wordAfter
  | wordEnd => wordBefore && !wordAfter
  | notAfterWord => !wordBefore
  | notBeforeWord => !wordAfter

inductive Pattern where
  | nothing
  | one (cls : CharClass)
  | look (l : Look)
  | sequence (p q : Pattern)
  | either (p q : Pattern)
  | repeated (p : Pattern) (least : Nat) (most : Option Nat)

namespace Pattern

def sequenceAll (ps : List Pattern) : Pattern := ps.foldr sequence nothing

def eitherOf : List Pattern → Pattern
  | [] => nothing
  | [p] => p
  | p :: ps => either p (eitherOf ps)

/-- The characters on both sides of each place, after a given one. -/
def neighbours (before : Option Char) : List Char → List (Option Char × Option Char)
  | [] => [(before, none)]
  | c :: cs => (before, some c) :: neighbours (some c) cs

def merge (a b : List Bool) : List Bool := List.zipWith (· || ·) a b

/-- The places where a match that starts at one of some places can end. -/
def ends (text : List Char) : Pattern → List Bool → List Bool
  | nothing, places => places
  | one cls, places => false :: List.zipWith (fun here c => here && cls.contains c) places text
  | look l, places =>
    List.zipWith (fun here sides => here && l.holds sides.1 sides.2) places (neighbours none text)
  | sequence p q, places => ends text q (ends text p places)
  | either p q, places => merge (ends text p places) (ends text q places)
  | repeated p least most, places =>
    let start := Nat.repeat (ends text p) least places
    let more := match most with
      | none => text.length
      | some m => min (m - least) text.length
    Nat.repeat (fun reached => merge reached (ends text p reached)) more start

def matchesIn (p : Pattern) (text : String) : Bool :=
  let cs := text.toList
  (p.ends cs (List.replicate (cs.length + 1) true)).contains true

end Pattern

end ApiScript
