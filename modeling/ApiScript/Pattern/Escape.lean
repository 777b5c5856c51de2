import ApiScript.Pattern.Basic
import ApiScript.Reference

/-! # Escapes in the text of a pattern -/

namespace ApiScript

namespace Pattern

structure Flags where
  ignoreCase : Bool
  multiLine : Bool
  dotAll : Bool
  unicode : Bool
  verbose : Bool
  carriageReturn : Bool

def Flags.standard : Flags := ⟨false, false, false, true, false, false⟩

inductive Atom where
  | char (c : Char)
  | cls (c : CharClass)
  | look (l : Look)

/-- The class of the characters from one to another, in all their cases where case is ignored. -/
def Flags.range (flags : Flags) (first last : Char) : CharClass :=
  if flags.ignoreCase then .foldedRange first last else .range first last

def hexChar? (ds : List Char) : Option Char :=
  if ds.all isHexDigit then (naturalOf? 16 ds).bind CodePoint.charOf? else none

/-- A character by its code point: so many digits, or any number of them in braces. -/
def codePoint? (count : Nat) : List Char → Option (Char × List Char)
  | '{' :: cs =>
    match cs.span (· ≠ '}') with
    | (ds, '}' :: rest) => (hexChar? ds).map fun c => (c, rest)
    | _ => none
  | cs =>
    if (cs.take count).length = count then
      (hexChar? (cs.take count)).map fun c => (c, cs.drop count)
    else none

def property? (name : List Char) : Option CharClass :=
  let plain := (name.filter fun c => c ≠ '_' ∧ c ≠ '-' ∧ c ≠ ' ').map Char.toLower
  if plain ∈ ["nd", "decimalnumber", "digit"].map String.toList then some .digit
  else if plain ∈ ["whitespace", "wspace", "space"].map String.toList then some .blank
  else if plain = "any".toList then some CharClass.any
  else if plain = "ascii".toList then some (.range '\x00' '\x7f')
  else none

/-- A class by its property: a single letter, or a name in braces, which a circumflex negates. -/
def propertyClass? : List Char → Option (CharClass × List Char)
  | '{' :: cs =>
    match cs.span (· ≠ '}') with
    | ('^' :: name, '}' :: rest) => (property? name).map fun c => (.complement c, rest)
    | (name, '}' :: rest) => (property? name).map fun c => (c, rest)
    | _ => none
  | c :: rest => (property? [c]).map fun cls => (cls, rest)
  | [] => none

/-- The class of a letter, within ASCII where other characters are switched off. -/
def letterClass? (flags : Flags) (c : Char) : Option CharClass :=
  let asciiClass (name : String) := (CharClass.ofName? name.toList).getD .empty
  match c with
  | 'd' => some (if flags.unicode then .digit else asciiClass "digit")
  | 'w' => some (if flags.unicode then .word else asciiClass "word")
  | 's' => some (if flags.unicode then .blank else asciiClass "space")
  | 'D' => if flags.unicode then some (.complement .digit) else none
  | 'W' => if flags.unicode then some (.complement .word) else none
  | 'S' => if flags.unicode then some (.complement .blank) else none
  | _ => none

/-- The condition after a backslash and a `b`, which may be followed by a kind in braces. -/
def boundary? (cs : List Char) : Option (Look × List Char) :=
  match cs with
  | '{' :: after =>
    match after.span fun c => c.isAlpha ∨ c = '-' with
    | (kind, '}' :: rest) =>
      if kind = "start".toList then some (.wordStart, rest)
      else if kind = "end".toList then some (.wordEnd, rest)
      else if kind = "start-half".toList then some (.notAfterWord, rest)
      else if kind = "end-half".toList then some (.notBeforeWord, rest)
      else none
    | ([], _) => some (.wordBoundary, cs)
    | _ => none
  | _ => some (.wordBoundary, cs)

def escape? (flags : Flags) : List Char → Option (Atom × List Char)
  | [] => none
  | c :: rest =>
    match letterClass? flags c with
    | some cls => some (.cls cls, rest)
    | none =>
      match c with
      | 'x' => (codePoint? 2 rest).map fun r => (.char r.1, r.2)
      | 'u' => (codePoint? 4 rest).map fun r => (.char r.1, r.2)
      | 'U' => (codePoint? 8 rest).map fun r => (.char r.1, r.2)
      | 'p' => if flags.unicode then (propertyClass? rest).map fun r => (.cls r.1, r.2) else none
      | 'P' =>
        if flags.unicode then (propertyClass? rest).map fun r => (.cls (.complement r.1), r.2)
        else none
      | 'a' => some (.char '\x07', rest)
      | 'f' => some (.char '\x0c', rest)
      | 't' => some (.char '\t', rest)
      | 'n' => some (.char '\n', rest)
      | 'r' => some (.char '\r', rest)
      | 'v' => some (.char '\x0b', rest)
      | 'A' => some (.look .textStart, rest)
      | 'z' => some (.look .textEnd, rest)
      | 'b' => (boundary? rest).map fun r => (.look r.1, r.2)
      | 'B' => some (.look .notWordBoundary, rest)
      | '<' => some (.look .wordStart, rest)
      | '>' => some (.look .wordEnd, rest)
      | _ => if c.toNat < 128 ∧ !c.isAlphanum then some (.char c, rest) else none

end Pattern

end ApiScript
