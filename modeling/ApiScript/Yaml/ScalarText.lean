import ApiScript.Reference
import ApiScript.Yaml.Cursor

/-! # The texts of scalars

A text may go over several lines: a single end of line within it counts as a blank, of several the
first is dropped. White space next to the end of a line does not count.

Each reader takes a limit of its steps, of which each goes on by a character at least, and gives the
text in reverse.
-/

namespace ApiScript

namespace Yaml

structure Blanks where
  /-- The white space before any end of line, in reverse. -/
  gaps : List Char
  broken : Bool
  first : List Char
  more : List Char

namespace Blanks

def none : Blanks := ⟨[], false, [], []⟩

/-- A line that has been continued by an escape. -/
def continued : Blanks := ⟨[], true, [], []⟩

def folded (b : Blanks) : List Char :=
  if b.broken then
    match b.first with
    | ['\n'] => if b.more.isEmpty then [' '] else b.more
    | first => b.more ++ first
  else b.gaps

/-- Reads white space and ends of lines. A tab may not stand before a column. -/
def read? (column : Nat) : Nat → Blanks → Cursor → Option (Blanks × Cursor)
  | 0, b, c => some (b, c)
  | limit + 1, b, c =>
    match c.next? with
    | Option.none => some (b, c)
    | some x =>
      if isGap x then
        if b.broken && x == '\t' && c.column < column then Option.none
        else read? column limit (if b.broken then b else { b with gaps := x :: b.gaps }) c.skip
      else if isBreak x then
        let b := if b.broken then { b with more := c.breakText ++ b.more }
          else ⟨[], true, c.breakText, []⟩
        read? column limit b c.skipBreak
      else some (b, c)

end Blanks

namespace Quoted

def code? (count : Nat) (c : Cursor) : Option (Char × Cursor) :=
  let ds := c.rest.take count
  if ds.length = count ∧ ds.all isHexDigit then
    ((naturalOf? 16 ds).bind CodePoint.charOf?).map fun x => (x, c.skipMany count)
  else none

def escaped? : Char → Option Char
  | '0' => some '\x00'
  | 'a' => some '\x07'
  | 'b' => some '\x08'
  | 't' => some '\t'
  | '\t' => some '\t'
  | 'n' => some '\n'
  | 'v' => some '\x0b'
  | 'f' => some '\x0c'
  | 'r' => some '\r'
  | 'e' => some '\x1b'
  | ' ' => some ' '
  | '"' => some '"'
  | '/' => some '/'
  | '\\' => some '\\'
  | 'N' => some '\u0085'
  | '_' => some '\u00a0'
  | 'L' => some '\u2028'
  | 'P' => some '\u2029'
  | _ => none

def escape? (c : Cursor) : Option (Char × Cursor) :=
  match c.next? with
  | none => none
  | some 'x' => code? 2 c.skip
  | some 'u' => code? 4 c.skip
  | some 'U' => code? 8 c.skip
  | some x => (escaped? x).map fun y => (y, c.skip)

def read? (quote : Char) : Nat → List Char → Cursor → Option (List Char × Cursor)
  | 0, _, _ => none
  | limit + 1, acc, c =>
    if c.isAtMark then none
    else
      match c.next? with
      | none => none
      | some x =>
        if x = '\'' ∧ quote = '\'' ∧ c.at? 1 = some '\'' then
          read? quote limit ('\'' :: acc) (c.skipMany 2)
        else if x = quote then some (acc, c.skip)
        else if x = '\\' ∧ quote = '"' then
          if (c.at? 1).any isBreak then
            (Blanks.read? 0 limit Blanks.continued c.skip.skipBreak).bind fun r =>
              read? quote limit (r.1.folded ++ acc) r.2
          else (escape? c.skip).bind fun r => read? quote limit (r.1 :: acc) r.2
        else if isGap x || isBreak x then
          (Blanks.read? 0 (limit + 1) Blanks.none c).bind fun r =>
            read? quote limit (r.1.folded ++ acc) r.2
        else read? quote limit (x :: acc) c.skip

end Quoted

namespace Plain

def isFlowSign (c : Char) : Bool := c == ',' || c == '[' || c == ']' || c == '{' || c == '}'

def readPart? (inFlow : Bool) : Nat → List Char → Cursor → Option (List Char × Cursor)
  | 0, acc, c => some (acc, c)
  | limit + 1, acc, c =>
    match c.next? with
    | none => some (acc, c)
    | some x =>
      if isGap x || isBreak x then some (acc, c)
      else if inFlow && x == ':' && (c.at? 1).any (fun y => isFlowSign y || y == '?') then none
      else if (x == ':' && c.isOpenAt 1) || (inFlow && isFlowSign x) then some (acc, c)
      else readPart? inFlow limit (x :: acc) c.skip

/-- Reads a plain text whose further lines stand at a column at least. What is put last says whether
it is followed by the end of a line. -/
def read? (inFlow : Bool) (column : Nat) :
    Nat → List Char → Blanks → Cursor → Option (List Char × Bool × Cursor)
  | 0, acc, b, c => some (acc, b.broken, c)
  | limit + 1, acc, b, c =>
    if c.isAtMark || c.isAt '#' then some (acc, b.broken, c)
    else
      match readPart? inFlow c.rest.length (b.folded ++ acc) c with
      | none => none
      | some (text, after) =>
        let (acc, b) := if after.index = c.index then (acc, b) else (text, Blanks.none)
        if after.isAtGap || after.isAtBreak then
          match Blanks.read? column after.rest.length b after with
          | none => none
          | some (b, after) =>
            if !inFlow && after.column < column then some (acc, b.broken, after)
            else read? inFlow column limit acc b after
        else some (acc, b.broken, after)

end Plain

namespace Block

/-- Reads blank lines and the white space before the text of a line. An indentation of 0 is not yet
known; the greatest one seen comes with the result. -/
def blankLines? (indent : Nat) : Nat → Nat → List Char → Cursor →
    Option (Nat × List Char × Cursor)
  | 0, widest, acc, c => some (widest, acc, c)
  | limit + 1, widest, acc, c =>
    let within := indent = 0 ∨ c.column < indent
    match c.next? with
    | some ' ' =>
      if within then blankLines? indent limit (max widest (c.column + 1)) acc c.skip
      else some (widest, acc, c)
    | some x =>
      if within ∧ x = '\t' then none
      else if isBreak x then blankLines? indent limit widest (c.breakText ++ acc) c.skipBreak
      else some (widest, acc, c)
    | none => some (widest, acc, c)

/-- Reads the lines of a text. `first` is the end of the last line and `more` the blank lines after
it, in reverse. -/
def lines? (literal : Bool) (indent : Nat) : Nat → List Char → List Char → List Char → Bool →
    Cursor → Option (List Char × List Char × List Char × Cursor)
  | 0, acc, first, more, _, c => some (acc, first, more, c)
  | limit + 1, acc, first, more, afterGap, c =>
    if c.column ≠ indent ∨ c.rest.isEmpty then some (acc, first, more, c)
    else
      let startsGap := c.isAtGap
      let joined :=
        if !literal && first == ['\n'] && !afterGap && !startsGap then
          if more.isEmpty then ' ' :: acc else more ++ acc
        else more ++ first ++ acc
      let text := c.rest.takeWhile fun x => !isBreak x
      let c := c.skipLine
      match blankLines? indent c.rest.length 0 [] c.skipBreak with
      | none => none
      | some (_, more, after) =>
        lines? literal indent limit (text.reverse ++ joined) c.breakText more startsGap after

/-- How the ends of the last lines are treated, and by how much the text is indented, if that is
said. -/
structure Header where
  /-- Keeps all ends of lines, or drops all. -/
  keep : Option Bool
  increment : Option Nat

def increment? (c : Cursor) : Option (Option Nat × Cursor) :=
  match c.next? with
  | some x =>
    if x = '0' then none
    else if x.isDigit then some (some (x.toNat - 48), c.skip)
    else some (none, c)
  | none => some (none, c)

def keep? (c : Cursor) : Option Bool × Cursor :=
  match c.next? with
  | some '+' => (some true, c.skip)
  | some '-' => (some false, c.skip)
  | _ => (none, c)

def header? (c : Cursor) : Option (Header × Cursor) :=
  match keep? c with
  | (some k, c) => (increment? c).map fun r => (⟨some k, r.1⟩, r.2)
  | (none, c) =>
    match increment? c with
    | none => none
    | some (none, c) => some (⟨none, none⟩, c)
    | some (some n, c) => let (k, c) := keep? c; some (⟨k, some n⟩, c)

def restOfLine? (c : Cursor) : Option Cursor :=
  let c := c.skipWhile isGap
  let c := if c.isAt '#' then c.skipLine else c
  if c.rest.isEmpty then some c else if c.isAtBreak then some c.skipBreak else none

def read? (literal : Bool) (outer : Int) (c : Cursor) : Option (List Char × Cursor) := do
  let (header, c) ← header? c
  let c ← restOfLine? c
  let said := match header.increment with
    | none => 0
    | some n => if 0 ≤ outer then outer.toNat + n else n
  let (widest, more, c) ← blankLines? said c.rest.length 0 [] c
  let indent := if said = 0 then max (max widest (outer + 1).toNat) 1 else said
  let (acc, first, more, c) ← lines? literal indent c.rest.length [] [] more false c
  match header.keep with
  | some false => return (acc, c)
  | none => return (first ++ acc, c)
  | some true => return (more ++ first ++ acc, c)

end Block

end Yaml

end ApiScript
