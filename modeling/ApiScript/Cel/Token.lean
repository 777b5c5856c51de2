import ApiScript.Number.Reading
import ApiScript.Reference

/-! # Tokens of expressions

The text of an expression is split into names, numbers, texts and signs; white space and comments,
which begin with two slashes, stand for nothing.
-/

namespace ApiScript

namespace Cel

inductive Literal where
  | null
  | bool (b : Bool)
  | int (n : Int)
  | uint (n : Nat)
  | double (x : Binary64)
  | string (s : String)
  | bytes (bs : List UInt8)

inductive Token where
  | name (text : String)
  | whole (text : List Char)
  | decimal (text : List Char)
  | literal (l : Literal)
  | sign (text : String)
  deriving Inhabited

/-- What stands between quotes: characters, and bytes that are given by their numbers. -/
inductive TextUnit where
  | char (c : Char)
  | byte (n : Nat)

def TextUnit.toChar : TextUnit → Char
  | .char c => c
  | .byte n => Char.ofNat n

def TextUnit.toBytes : TextUnit → List UInt8
  | .char c => (String.ofList [c]).toUTF8.toList
  | .byte n => [n.toUInt8]

namespace Lexer

def isNameStart (c : Char) : Bool := c.isAlpha || c == '_'

def isNameChar (c : Char) : Bool := c.isAlphanum || c == '_'

def escaped? : Char → Option Char
  | 'a' => some '\x07'
  | 'b' => some '\x08'
  | 'f' => some '\x0c'
  | 'n' => some '\n'
  | 'r' => some '\r'
  | 't' => some '\t'
  | 'v' => some '\x0b'
  | '"' => some '"'
  | '\'' => some '\''
  | '\\' => some '\\'
  | '?' => some '?'
  | '\x60' => some '\x60'
  | _ => none

def hexByte? (ds : List Char) : Option TextUnit :=
  if ds.all isHexDigit then (naturalOf? 16 ds).map .byte else none

def octalByte? (ds : List Char) : Option TextUnit :=
  ((naturalOf? 8 ds).filter (· < 256)).map .byte

def codePoint? (ds : List Char) : Option TextUnit :=
  if ds.all isHexDigit then ((naturalOf? 16 ds).bind CodePoint.charOf?).map .char else none

/-- Whether a text begins with the quotes that end it: three of them or one. -/
def isEnd (quote : Char) (triple : Bool) (cs : List Char) : Bool :=
  if triple then cs.take 3 == [quote, quote, quote] else cs.head? == some quote

def afterEnd (triple : Bool) (cs : List Char) : List Char := cs.drop (if triple then 3 else 1)

def isPlain (triple : Bool) (c : Char) : Bool := triple || (c != '\n' && c != '\r')

def putFirst (u : List TextUnit) (r : Option (List TextUnit × List Char)) :
    Option (List TextUnit × List Char) :=
  r.map fun (us, rest) => (u ++ us, rest)

def chars (cs : List Char) : List TextUnit := cs.map .char

/-- Reads up to the quotes that end a text, in which a backslash stands for itself unless it comes
before such a quote. Two quotes side by side, which only a text between triple quotes can have,
stand for nothing. -/
def raw? (quote : Char) (triple : Bool) : List Char → Option (List TextUnit × List Char)
  | [] => none
  | '\\' :: c :: cs =>
    if c = quote then
      if isEnd quote triple (c :: cs) then some (chars [quote], afterEnd triple (c :: cs))
      else putFirst (chars [quote]) (raw? quote triple cs)
    else if isPlain triple c then putFirst (chars ['\\', c]) (raw? quote triple cs)
    else none
  | c :: cs =>
    if isEnd quote triple (c :: cs) then some ([], afterEnd triple (c :: cs))
    else if c = quote then
      match cs with
      | d :: cs => if d = quote then raw? quote triple cs else none
      | [] => none
    else if isPlain triple c then putFirst (chars [c]) (raw? quote triple cs)
    else none

def numbered? (u : Option TextUnit) (r : Option (List TextUnit × List Char)) :
    Option (List TextUnit × List Char) :=
  u.bind fun u => putFirst [u] r

/-- Reads up to the quotes that end a text, in which a backslash begins an escape. A backslash
before a quote of the other kind stands for itself; two quotes side by side stand for nothing. -/
def cooked? (quote : Char) (triple : Bool) : List Char → Option (List TextUnit × List Char)
  | [] => none
  | '\\' :: 'x' :: a :: b :: cs => numbered? (hexByte? [a, b]) (cooked? quote triple cs)
  | '\\' :: 'X' :: a :: b :: cs => numbered? (hexByte? [a, b]) (cooked? quote triple cs)
  | '\\' :: 'u' :: a :: b :: c :: d :: cs =>
    numbered? (codePoint? [a, b, c, d]) (cooked? quote triple cs)
  | '\\' :: 'U' :: a :: b :: c :: d :: e :: f :: g :: h :: cs =>
    numbered? (codePoint? [a, b, c, d, e, f, g, h]) (cooked? quote triple cs)
  | '\\' :: c :: cs =>
    if (c = '"' ∨ c = '\'') ∧ c ≠ quote then
      putFirst (chars ['\\', c]) (cooked? quote triple cs)
    else
      match escaped? c with
      | some e => putFirst (chars [e]) (cooked? quote triple cs)
      | none =>
        match cs with
        | a :: b :: cs => numbered? (octalByte? [c, a, b]) (cooked? quote triple cs)
        | _ => none
  | c :: cs =>
    if isEnd quote triple (c :: cs) then some ([], afterEnd triple (c :: cs))
    else if c = quote then
      match cs with
      | d :: cs => if d = quote then cooked? quote triple cs else none
      | [] => none
    else if c != '\\' && isPlain triple c then
      putFirst (chars [c]) (cooked? quote triple cs)
    else none

/-- Reads a text from its opening quotes on. Three quotes open a text if three close it. -/
def quoted? (isRaw : Bool) (cs : List Char) : Option (List TextUnit × List Char) :=
  match cs with
  | [] => none
  | quote :: rest =>
    if quote != '"' && quote != '\'' then none
    else
      let read (triple : Bool) (cs : List Char) :=
        if isRaw then raw? quote triple cs else cooked? quote triple cs
      let long := if isEnd quote true cs then read true (afterEnd true cs) else none
      long.or (read false rest)

def textOf (units : List TextUnit) : Literal := .string (String.ofList (units.map TextUnit.toChar))

def bytesOf (units : List TextUnit) : Literal := .bytes (units.flatMap TextUnit.toBytes)

def text? (cs : List Char) : Option (Literal × List Char) :=
  let isByteMark (c : Char) := c == 'b' || c == 'B'
  let isRawMark (c : Char) := c == 'r' || c == 'R'
  match cs with
  | a :: b :: rest =>
    if isByteMark a && isRawMark b then (quoted? true rest).map fun r => (bytesOf r.1, r.2)
    else if isByteMark a then (quoted? false (b :: rest)).map fun r => (bytesOf r.1, r.2)
    else if isRawMark a then (quoted? true (b :: rest)).map fun r => (textOf r.1, r.2)
    else (quoted? false cs).map fun r => (textOf r.1, r.2)
  | _ => none

def exponent (cs : List Char) : List Char :=
  match cs with
  | c :: rest =>
    if c = 'e' ∨ c = 'E' then
      let (sign, ds) := match rest with
        | '+' :: ds => (['+'], ds)
        | '-' :: ds => (['-'], ds)
        | ds => ([], ds)
      match ds.takeWhile Char.isDigit with
      | [] => []
      | digits => c :: sign ++ digits
    else []
  | [] => []

def fraction (cs : List Char) : List Char :=
  match cs with
  | '.' :: rest =>
    match rest.takeWhile Char.isDigit with
    | [] => []
    | digits => '.' :: digits
  | _ => []

def unsigned? (base : Nat) (digits : List Char) : Option Token :=
  ((naturalOf? base digits).filter (· < Nat.pow 2 64)).map fun n => .literal (.uint n)

def isUnsignedMark (cs : List Char) : Bool := cs.head?.any fun c => c == 'u' || c == 'U'

def number? (cs : List Char) : Option (Token × List Char) :=
  let hex := match cs with
    | '0' :: 'x' :: rest => rest.takeWhile isHexDigit
    | _ => []
  if hex ≠ [] then
    let rest := cs.drop (hex.length + 2)
    if isUnsignedMark rest then (unsigned? 16 hex).map fun t => (t, rest.drop 1)
    else some (.whole ('0' :: 'x' :: hex), rest)
  else
    let digits := cs.takeWhile Char.isDigit
    let rest := cs.dropWhile Char.isDigit
    let point := fraction rest
    let rest := rest.drop point.length
    let power := exponent rest
    let rest := rest.drop power.length
    if point ≠ [] ∨ power ≠ [] then some (.decimal (digits ++ point ++ power), rest)
    else if isUnsignedMark rest then (unsigned? 10 digits).map fun t => (t, rest.drop 1)
    else some (.whole digits, rest)

def ofName (text : String) : Token :=
  if text = "true" then .literal (.bool true)
  else if text = "false" then .literal (.bool false)
  else if text = "null" then .literal .null
  else if text = "in" then .sign "in"
  else .name text

/-- The signs, of which the longer ones are tried first. -/
def signs : List String :=
  ["==", "!=", "<=", ">=", "&&", "||", "<", ">", "[", "]", "\x7b", "\x7d", "(", ")", ".", ",",
    "-", "!", "?", ":", "+", "*", "/", "%"]

def sign? (cs : List Char) : Option (Token × List Char) :=
  (signs.find? fun s => s.toList.isPrefixOf cs).map fun s => (.sign s, cs.drop s.length)

def token? (cs : List Char) : Option (Token × List Char) :=
  match text? cs with
  | some (l, rest) => some (.literal l, rest)
  | none =>
    match cs with
    | [] => none
    | c :: rest =>
      if isNameStart c then
        some (ofName (String.ofList (cs.takeWhile isNameChar)), cs.dropWhile isNameChar)
      else if c.isDigit || (c == '.' && rest.head?.any Char.isDigit) then number? cs
      else sign? cs

def isSpace (c : Char) : Bool := c == ' ' || c == '\t' || c == '\r' || c == '\n' || c == '\x0c'

def tokens? : Nat → List Char → Option (List Token)
  | _, [] => some []
  | 0, _ => none
  | limit + 1, c :: cs =>
    if isSpace c then tokens? limit cs
    else if c == '/' && cs.head? == some '/' then tokens? limit (cs.dropWhile (· ≠ '\n'))
    else
      match token? (c :: cs) with
      | none => none
      | some (t, rest) => (tokens? limit rest).map (t :: ·)

end Lexer

def Token.all? (text : String) : Option (List Token) :=
  Lexer.tokens? text.length text.toList

end Cel

end ApiScript
