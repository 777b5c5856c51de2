import ApiScript.Json.Printer
import ApiScript.Yaml.Reading

/-! # YAML text

A value is written in block style, every item and field on a line of its own; only empty lists and
objects are written as `[]` and `{}`. A list under a name stands in the column of the name, all else
two columns further in.

A text is written plainly where it reads back as that text, otherwise between single quotes, as
literal lines or between double quotes.
-/

namespace ApiScript

namespace Yaml

def decimals : DecimalLayout := { jsonDecimals with plus := "" }

def indentation (column : Nat) : List Char := List.replicate column ' '

/-- Whether a text by itself reads as something else, or is easily mistaken for it. -/
def isAmbiguous (text : String) : Bool :=
  hasLeadingZero text.toList ||
    match plainValue? text with
    | some (.string _) => false
    | _ => true

def isShown (c : Char) : Bool :=
  c == '\n' || ('\x20' ≤ c && c ≤ '\x7e') || ('\xa0' ≤ c && c ≤ '\ud7ff') ||
    ('\ue000' ≤ c && c ≤ '\ufffd' && c != '\ufeff') || '\uffff' < c

/-- What follows a sign that is not to be mistaken: a blank, a break or the end. -/
def endsWord : List Char → Bool
  | [] => true
  | c :: _ => isGap c || isBreak c || c == '\x00'

def openingSigns : List Char := "#,[]\x7b\x7d&*!|>'\"%@\x60".toList

def opensWithSign (cs : List Char) : Bool :=
  cs.take 3 = ['-', '-', '-'] || cs.take 3 = ['.', '.', '.'] ||
    match cs with
    | [] => false
    | c :: rest => openingSigns.contains c || ((c == '?' || c == ':' || c == '-') && endsWord rest)

/-- Whether the rest of a text, of which the character before it is given, has a colon at the end of
a word or a number sign at the start of one. -/
def hasInnerSign (before : Char) : List Char → Bool
  | [] => false
  | c :: rest =>
    (c == ':' && endsWord rest) || (c == '#' && endsWord [before]) || hasInnerSign c rest

def hasPair (p q : Char → Bool) : List Char → Bool
  | c :: d :: rest => (p c && q d) || hasPair p q (d :: rest)
  | _ => false

def needsEscapes (cs : List Char) : Bool :=
  hasPair (· == ' ') isBreak cs || cs.any fun c => !isShown c

/-- Whether a text can stand without quotes in block style, apart from what it then reads as. -/
def canBePlain : List Char → Bool
  | [] => true
  | c :: rest =>
    let cs := c :: rest
    !opensWithSign cs && !hasInnerSign c rest && !needsEscapes cs && !cs.any isBreak &&
      c != ' ' && !cs.getLast?.any (· == ' ')

def canBeQuoted (cs : List Char) : Bool := !needsEscapes cs && !hasPair isBreak (· == ' ') cs

def canBeLines (cs : List Char) : Bool := !needsEscapes cs && !cs.getLast?.any (· == ' ')

inductive ScalarStyle where
  | plain
  | single
  | double
  | lines

/-- How a text is written. Names of fields that stand before their values are one line each. -/
def styleOf (isName : Bool) (text : String) : ScalarStyle :=
  let cs := text.toList
  let isLines := cs.contains '\n'
  if isLines && !isName && canBeLines cs then .lines
  else if isLines || (isName && cs.any isBreak) then .double
  else if !isAmbiguous text && canBePlain cs then .plain
  else if canBeQuoted cs then .single
  else .double

def spread (column : Nat) (atBreak : Bool) : List Char → List Char
  | [] => []
  | c :: rest =>
    if isBreak c then c :: spread column true rest
    else if atBreak then indentation column ++ c :: spread column false rest
    else c :: spread column false rest

def singleQuoted (column : Nat) (cs : List Char) : List Char :=
  let body := spread column false (cs.flatMap fun c => if c == '\'' then ['\'', '\''] else [c])
  '\'' :: body ++ (if cs.getLast?.any isBreak then indentation column else []) ++ ['\'']

def codeText (width n : Nat) : List Char :=
  let digits := (Nat.toDigits 16 n).map Char.toUpper
  List.replicate (width - digits.length) '0' ++ digits

def shortEscapes : List (Char × Char) :=
  [('\x00', '0'), ('\x07', 'a'), ('\x08', 'b'), ('\t', 't'), ('\n', 'n'), ('\x0b', 'v'),
    ('\x0c', 'f'), ('\r', 'r'), ('\x1b', 'e'), ('"', '"'), ('\\', '\\'), ('\u0085', 'N'),
    ('\u00a0', '_'), ('\u2028', 'L'), ('\u2029', 'P')]

def escape (c : Char) : List Char :=
  if isShown c && !isBreak c && c != '"' && c != '\\' then [c]
  else
    match shortEscapes.lookup c with
    | some letter => ['\\', letter]
    | none =>
      if c.toNat ≤ 0xff then '\\' :: 'x' :: codeText 2 c.toNat
      else if c.toNat ≤ 0xffff then '\\' :: 'u' :: codeText 4 c.toNat
      else '\\' :: 'U' :: codeText 8 c.toNat

def doubleQuoted (cs : List Char) : List Char := '"' :: cs.flatMap escape ++ ['"']

/-- What is said about lines before they start: the column where they do not show it, and whether
the breaks at the end are dropped or kept. -/
def linesHeader (cs : List Char) : List Char :=
  let column := if cs.head?.any fun c => c == ' ' || isBreak c then ['2'] else []
  let ending := match cs.reverse with
    | [] => ['-']
    | [c] => if isBreak c then ['+'] else ['-']
    | c :: d :: _ => if !isBreak c then ['-'] else if isBreak d then ['+'] else []
  '|' :: column ++ ending

def lineText (column : Nat) (cs : List Char) : List Char :=
  let text := linesHeader cs ++ '\n' :: spread column true cs
  if cs.getLast? = some '\n' then text.dropLast else text

def writeText (column : Nat) (isName : Bool) (text : String) : List Char :=
  match styleOf isName text with
  | .plain => text.toList
  | .single => singleQuoted column text.toList
  | .double => doubleQuoted text.toList
  | .lines => lineText column text.toList

def isShortName (name : String) : Bool := !name.toList.any isBreak && name.utf8ByteSize ≤ 128

def numberText : JsonNumber → String
  | .int n => toString n
  | .float x => x.1.render decimals

def leaf (column : Nat) : Json → List Char
  | .null => "null".toList
  | .bool b => (if b then "true" else "false").toList
  | .number n => (numberText n).toList
  | .string s => writeText column false s
  | .array _ => ['[', ']']
  | .object _ => ['\x7b', '\x7d']

def lineStart (column : Nat) : List Char := '\n' :: indentation column

/-- A name with the mark after it. A long name stands on lines of its own, after a question mark. -/
def nameText (column : Nat) (name : String) : List Char :=
  if isShortName name then writeText (column + 2) true name ++ [':']
  else ['?', ' '] ++ writeText (column + 2) false name ++ lineStart column ++ [':', ' ']

mutual

/-- A value under a short name that stands in a column, or else after a mark of two characters that
stands in the column. -/
def written (column : Nat) (isNamed : Bool) : Json → List Char
  | .array (x :: xs) =>
    if isNamed then items column (x :: xs) else (items (column + 2) (x :: xs)).drop (column + 3)
  | .object (e :: es) =>
    let lines := fields (column + 2) (e :: es)
    if isNamed then lines else lines.drop (column + 3)
  | other => (if isNamed then [' '] else []) ++ leaf (column + 2) other

def items (column : Nat) : List Json → List Char
  | [] => []
  | x :: xs => lineStart column ++ ['-', ' '] ++ written column false x ++ items column xs

def fields (column : Nat) : List (String × Json) → List Char
  | [] => []
  | (n, x) :: xs =>
    lineStart column ++ nameText column n ++ written column (isShortName n) x ++ fields column xs

end

def render (v : Json) : String :=
  let text := match v with
    | .array (x :: xs) => (items 0 (x :: xs)).drop 1
    | .object (e :: es) => (fields 0 (e :: es)).drop 1
    | other => written 0 false other
  String.ofList (text ++ ['\n'])

end Yaml

end ApiScript
