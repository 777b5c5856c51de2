import ApiScript.Yaml.Cursor
import ApiScript.Yaml.ScalarText

/-! # Splitting YAML into tokens

Collections in block form begin and end with the columns at which their parts stand. What turns out
to be a key, because a colon follows it on its line, gets its tokens put in front of it afterwards.
-/

namespace ApiScript

namespace Yaml

/-! ## Tokens -/

/-- A name for what a node is: the handle stands for a text that is put before the suffix. -/
structure TagName where
  handle : List Char
  suffix : List Char

inductive Token where
  | version (major minor : Nat)
  | tagHandle (handle start : List Char)
  | documentStart
  | documentEnd
  | blockSequence
  | blockMapping
  | blockEnd
  | flowSequence
  | flowSequenceEnd
  | flowMapping
  | flowMappingEnd
  | entry
  | comma
  | key
  | value
  | anchor (name : List Char)
  | alias (name : List Char)
  | tag (name : TagName)
  | scalar (plain : Bool) (text : List Char)

/-! ## The lexer -/

structure PossibleKey where
  position : Nat
  index : Nat
  line : Nat
  column : Nat
  /-- Nothing but a key may stand there. -/
  required : Bool

structure Lexer where
  cursor : Cursor
  tokens : List Token
  count : Nat
  indent : Int
  outerIndents : List Int
  /-- The possible key of each open collection in flow form, the innermost first, and last the one
  outside of them. -/
  keys : List (Option PossibleKey)
  keyAllowed : Bool

namespace Lexer

def start (cs : List Char) : Lexer := ⟨Cursor.start cs, [], 0, -1, [], [none], true⟩

def inFlow (l : Lexer) : Bool := 1 < l.keys.length

def emit (l : Lexer) (t : Token) : Lexer := { l with tokens := t :: l.tokens, count := l.count + 1 }

def emitAt (l : Lexer) (position : Nat) (t : Token) : Lexer :=
  let behind := l.count - position
  { l with tokens := l.tokens.take behind ++ t :: l.tokens.drop behind, count := l.count + 1 }

def advance (l : Lexer) (c : Cursor) : Lexer := { l with cursor := c }

def openBlock (l : Lexer) (column position : Nat) (t : Token) : Lexer :=
  if l.inFlow ∨ (column : Int) ≤ l.indent then l
  else { l with outerIndents := l.indent :: l.outerIndents, indent := column }.emitAt position t

/-- Ends the collections in block form beyond a column. -/
def closeBlocks (l : Lexer) (column : Int) : List Int → Lexer
  | [] => l
  | outer :: others =>
    if l.indent ≤ column then l
    else
      ({ l with indent := outer, outerIndents := others }.emit .blockEnd).closeBlocks column others

def unroll (l : Lexer) (column : Int) : Lexer :=
  if l.inFlow then l else l.closeBlocks column l.outerIndents

def dropKey? (l : Lexer) : Option Lexer :=
  match l.keys with
  | some k :: others => if k.required then none else some { l with keys := none :: others }
  | _ => some l

def noteKey? (l : Lexer) : Option Lexer :=
  if l.keyAllowed then
    l.dropKey?.map fun l =>
      let c := l.cursor
      let required := !l.inFlow && l.indent == c.column
      { l with keys := some ⟨l.count, c.index, c.line, c.column, required⟩ :: l.keys.drop 1 }
  else some l

/-- A key ends on its line and within 1024 characters. -/
def isStale (c : Cursor) (k : PossibleKey) : Bool := k.line < c.line || k.index + 1024 < c.index

def dropStale? (c : Cursor) : List (Option PossibleKey) → Option (List (Option PossibleKey))
  | [] => some []
  | none :: others => (dropStale? c others).map (none :: ·)
  | some k :: others =>
    if isStale c k then
      if k.required then none else (dropStale? c others).map (none :: ·)
    else (dropStale? c others).map (some k :: ·)

def skipBlanks : Nat → Lexer → Lexer
  | 0, l => l
  | limit + 1, l =>
    let c := l.cursor
    if c.index = 0 ∧ c.isAt '\ufeff' then skipBlanks limit (l.advance c.skip)
    else if c.isAt ' ' ∨ (c.isAt '\t' ∧ (l.inFlow ∨ !l.keyAllowed)) then
      skipBlanks limit (l.advance c.skip)
    else if c.isAt '#' then skipBlanks limit (l.advance c.skipLine)
    else if c.isAtBreak then
      skipBlanks limit { l with cursor := c.skipBreak, keyAllowed := l.keyAllowed || !l.inFlow }
    else l

/-- A sign of so many characters that ends all that is open in block form. -/
def mark? (l : Lexer) (width : Nat) (t : Token) : Option Lexer :=
  (l.unroll (-1)).dropKey?.map fun l =>
    ({ l with keyAllowed := false, cursor := l.cursor.skipMany width }).emit t

def openFlow? (l : Lexer) (t : Token) : Option Lexer :=
  l.noteKey?.map fun l =>
    ({ l with keys := none :: l.keys, keyAllowed := true, cursor := l.cursor.skip }).emit t

def closeFlow? (l : Lexer) (t : Token) : Option Lexer :=
  l.dropKey?.map fun l =>
    let keys := if l.inFlow then l.keys.drop 1 else l.keys
    ({ l with keys := keys, keyAllowed := false, cursor := l.cursor.skip }).emit t

def comma? (l : Lexer) : Option Lexer :=
  l.dropKey?.map fun l => ({ l with keyAllowed := true, cursor := l.cursor.skip }).emit .comma

/-- A sign that stands only where a key may begin, unless in flow form. -/
def blockSign? (l : Lexer) (collection : Token) (allowsKey : Bool) (t : Token) : Option Lexer :=
  if !l.inFlow && !l.keyAllowed then none
  else
    (l.openBlock l.cursor.column l.count collection).dropKey?.map fun l =>
      ({ l with keyAllowed := allowsKey, cursor := l.cursor.skip }).emit t

def entry? (l : Lexer) : Option Lexer := l.blockSign? .blockSequence true .entry

def key? (l : Lexer) : Option Lexer := l.blockSign? .blockMapping (!l.inFlow) .key

/-- A colon makes a key of what may be one. -/
def value? (l : Lexer) : Option Lexer :=
  match l.keys with
  | some k :: others =>
    let l := ({ l with keys := none :: others, keyAllowed := false }).emitAt k.position .key
    some ((l.openBlock k.column k.position .blockMapping).advance l.cursor.skip |>.emit .value)
  | _ =>
    if !l.inFlow && !l.keyAllowed then none
    else
      let l := l.openBlock l.cursor.column l.count .blockMapping
      some ({ l with keyAllowed := !l.inFlow, cursor := l.cursor.skip }.emit .value)

def name? (l : Lexer) (t : List Char → Token) : Option Lexer :=
  l.noteKey?.bind fun l =>
    let c := l.cursor.skip
    let name := c.rest.takeWhile isWordPart
    let after := c.skipMany name.length
    let ends := after.isOpenAt 0 || after.next?.any fun x => "?:,]\x7d%@\x60".toList.contains x
    if name.isEmpty || !ends then none
    else some ({ l with keyAllowed := false, cursor := after }.emit (t name))

def isTagPart (inBrackets : Bool) (c : Char) : Bool :=
  isWordPart c || ";/?:@&=+$.%!~*'()".toList.contains c || (inBrackets && ",[]".toList.contains c)

def percentBytes : List Char → List UInt8 × List Char
  | '%' :: a :: b :: rest =>
    if isHexDigit a && isHexDigit b then
      let (bytes, after) := percentBytes rest
      (((digitValue? a).getD 0 * 16 + (digitValue? b).getD 0).toUInt8 :: bytes, after)
    else ([], '%' :: a :: b :: rest)
  | rest => ([], rest)

def unescape? : Nat → List Char → Option (List Char)
  | 0, cs => if cs.isEmpty then some [] else none
  | _, [] => some []
  | limit + 1, c :: cs =>
    if c = '%' then
      let (bytes, rest) := percentBytes (c :: cs)
      if bytes.isEmpty then none
      else
        match String.fromUTF8? ⟨bytes.toArray⟩ with
        | none => none
        | some s => (unescape? limit rest).map (s.toList ++ ·)
    else (unescape? limit cs).map (c :: ·)

def tagPart? (inBrackets : Bool) (c : Cursor) : Option (List Char × Cursor) :=
  let text := c.rest.takeWhile (isTagPart inBrackets)
  (unescape? text.length text).map fun s => (s, c.skipMany text.length)

/-- Reads the handle of a tag: an exclamation mark, a name, and perhaps another mark. -/
def tagHandle (c : Cursor) : List Char × Cursor :=
  let name := c.skip.rest.takeWhile isWordPart
  let after := c.skip.skipMany name.length
  if after.isAt '!' then ('!' :: name ++ ['!'], after.skip) else ('!' :: name, after)

def tagName? (c : Cursor) : Option (TagName × Cursor) :=
  if c.at? 1 = some '<' then
    match tagPart? true (c.skipMany 2) with
    | some (suffix, after) =>
      if !suffix.isEmpty && after.isAt '>' then some (⟨[], suffix⟩, after.skip) else none
    | none => none
  else
    let (handle, after) := tagHandle c
    if 1 < handle.length ∧ handle.getLast? = some '!' then
      match tagPart? false after with
      | some (suffix, after) => if suffix.isEmpty then none else some (⟨handle, suffix⟩, after)
      | none => none
    else
      (tagPart? false after).map fun (suffix, after) =>
        let suffix := handle.drop 1 ++ suffix
        (if suffix.isEmpty then ⟨[], ['!']⟩ else ⟨['!'], suffix⟩, after)

def tag? (l : Lexer) : Option Lexer :=
  l.noteKey?.bind fun l =>
    match tagName? l.cursor with
    | none => none
    | some (name, after) =>
      if after.isOpenAt 0 || (l.inFlow && after.isAt ',') then
        some ({ l with keyAllowed := false, cursor := after }.emit (.tag name))
      else none

def blockScalar? (l : Lexer) (literal : Bool) : Option Lexer :=
  l.dropKey?.bind fun l =>
    (Block.read? literal l.indent l.cursor.skip).map fun (text, after) =>
      { l with keyAllowed := true, cursor := after }.emit (.scalar false text.reverse)

def quotedScalar? (l : Lexer) (quote : Char) : Option Lexer :=
  l.noteKey?.bind fun l =>
    let c := l.cursor.skip
    (Quoted.read? quote (c.rest.length + 1) [] c).map fun (text, after) =>
      { l with keyAllowed := false, cursor := after }.emit (.scalar false text.reverse)

def plainScalar? (l : Lexer) : Option Lexer :=
  l.noteKey?.bind fun l =>
    let c := l.cursor
    (Plain.read? l.inFlow (l.indent + 1).toNat c.rest.length [] Blanks.none c).map
      fun (text, broken, after) =>
        { l with keyAllowed := broken, cursor := after }.emit (.scalar true text.reverse)

def versionNumber? (c : Cursor) : Option (Nat × Cursor) :=
  let ds := c.rest.takeWhile Char.isDigit
  if ds.length ≤ 9 then (naturalOf? 10 ds).map fun n => (n, c.skipMany ds.length) else none

def directiveValue? (name : List Char) (c : Cursor) : Option (Token × Cursor) :=
  if name = "YAML".toList then do
    let (major, c) ← versionNumber? (c.skipWhile isGap)
    if c.isAt '.' then
      let (minor, c) ← versionNumber? c.skip
      return (.version major minor, c)
    else none
  else if name = "TAG".toList then do
    let c := c.skipWhile isGap
    if !c.isAt '!' then none
    else
      let (handle, c) := tagHandle c
      if (handle ≠ ['!'] ∧ handle.getLast? ≠ some '!') ∨ !c.isAtGap then none
      else
        let (start, c) ← tagPart? true (c.skipWhile isGap)
        if start.isEmpty || !c.isOpenAt 0 then none else return (.tagHandle handle start, c)
  else none

def directive? (l : Lexer) : Option Lexer :=
  (l.unroll (-1)).dropKey?.bind fun l =>
    let c := l.cursor.skip
    let name := c.rest.takeWhile isWordPart
    let after := c.skipMany name.length
    if name.isEmpty || !after.isOpenAt 0 then none
    else do
      let (t, after) ← directiveValue? name after
      let after ← Block.restOfLine? after
      return { l with keyAllowed := false, cursor := after }.emit t

def beginsPlain (inFlow : Bool) (c : Cursor) (x : Char) : Bool :=
  !("\t-?:,[]\x7b\x7d#&*!|>'\"%@\x60".toList.contains x) ||
    (x == '-' && !(c.at? 1).any isGap) ||
    (!inFlow && (x == '?' || x == ':') && !c.isOpenAt 1)

def token? (l : Lexer) (x : Char) : Option Lexer :=
  let c := l.cursor
  if c.column = 0 ∧ x = '%' then l.directive?
  else if c.isAtMark then l.mark? 3 (if x = '-' then .documentStart else .documentEnd)
  else if x = '[' then l.openFlow? .flowSequence
  else if x = '{' then l.openFlow? .flowMapping
  else if x = ']' then l.closeFlow? .flowSequenceEnd
  else if x = '}' then l.closeFlow? .flowMappingEnd
  else if x = ',' then l.comma?
  else if x = '-' ∧ c.isOpenAt 1 then l.entry?
  else if x = '?' ∧ (l.inFlow ∨ c.isOpenAt 1) then l.key?
  else if x = ':' ∧ (l.inFlow ∨ c.isOpenAt 1) then l.value?
  else if x = '*' then l.name? .alias
  else if x = '&' then l.name? .anchor
  else if x = '!' then l.tag?
  else if x = '|' ∧ !l.inFlow then l.blockScalar? true
  else if x = '>' ∧ !l.inFlow then l.blockScalar? false
  else if x = '\'' ∨ x = '"' then l.quotedScalar? x
  else if beginsPlain l.inFlow c x then l.plainScalar?
  else none

def tokens? : Nat → Lexer → Option (List Token)
  | 0, _ => none
  | limit + 1, l =>
    let l := skipBlanks l.cursor.rest.length l
    match dropStale? l.cursor l.keys with
    | none => none
    | some keys =>
      let l := { l with keys := keys }.unroll l.cursor.column
      match l.cursor.next? with
      | none => (l.unroll (-1)).dropKey?.map fun l => l.tokens.reverse
      | some x => (l.token? x).bind (tokens? limit)

end Lexer

def Token.all? (cs : List Char) : Option (List Token) :=
  if cs.all isAllowed then Lexer.tokens? (cs.length + 1) (Lexer.start cs) else none

end Yaml

end ApiScript
