import ApiScript.Text.Basic
import ApiScript.Text.Character

/-! # Texts and bytes in other characters

Of bytes that form no character, all that could begin a character which breaks off become one
replacement character. Three bytes are four characters of 64 in base 64, where the last ones are
filled up with equals signs.
-/

namespace ApiScript

/-! ## Text from bytes -/

namespace Utf8

/-- For a first byte: how many bytes follow, and the range of the first of them. -/
def shape? (b : Nat) : Option (Nat × Nat × Nat) :=
  if b < 0x80 then some (0, 0, 0)
  else if 0xC2 ≤ b ∧ b ≤ 0xDF then some (1, 0x80, 0xBF)
  else if b = 0xE0 then some (2, 0xA0, 0xBF)
  else if b = 0xED then some (2, 0x80, 0x9F)
  else if 0xE1 ≤ b ∧ b ≤ 0xEF then some (2, 0x80, 0xBF)
  else if b = 0xF0 then some (3, 0x90, 0xBF)
  else if 0xF1 ≤ b ∧ b ≤ 0xF3 then some (3, 0x80, 0xBF)
  else if b = 0xF4 then some (3, 0x80, 0x8F)
  else none

/-- A character that is being read: the bytes that are still to come, the range of the next one,
and the number that the bytes so far make. -/
structure Open where
  missing : Nat
  least : Nat
  greatest : Nat
  value : Nat

def replacement : Char := '\ufffd'

def begin (b : Nat) : List Char × Option Open :=
  match shape? b with
  | none => ([replacement], none)
  | some (0, _, _) => ([Char.ofNat b], none)
  | some (n, least, greatest) => ([], some ⟨n, least, greatest, b % Nat.pow 2 (6 - n)⟩)

def step (state : Option Open) (b : Nat) : List Char × Option Open :=
  match state with
  | none => begin b
  | some o =>
    if o.least ≤ b ∧ b ≤ o.greatest then
      let value := o.value * 64 + b % 64
      if o.missing ≤ 1 then ([Char.ofNat value], none)
      else ([], some ⟨o.missing - 1, 0x80, 0xBF, value⟩)
    else
      let (out, next) := begin b
      (replacement :: out, next)

def decode : Option Open → List UInt8 → List Char
  | none, [] => []
  | some _, [] => [replacement]
  | state, b :: bs =>
    let (out, next) := step state b.toNat
    out ++ decode next bs

end Utf8

def textOfBytes (bytes : List UInt8) : String := String.ofList (Utf8.decode none bytes)

/-! ## Percent signs and digits -/

namespace Percent

def hexDigit (n : Nat) : Char :=
  if n < 10 then Char.ofNat (48 + n) else Char.ofNat (55 + n)

def byte (b : UInt8) : List Char := ['%', hexDigit (b.toNat / 16), hexDigit (b.toNat % 16)]

def isPlain (c : Char) : Bool := c.isAlphanum || c == '*' || c == '-' || c == '.' || c == '_'

def formChar (c : Char) : List Char :=
  if isPlain c then [c]
  else if c = ' ' then ['+']
  else (String.ofList [c]).toUTF8.toList.flatMap byte

end Percent

/-- A text as a value of a form in a query: a blank is written as a plus sign. -/
def formEncode (s : String) : String := String.ofList (s.toList.flatMap Percent.formChar)

/-! ## Base 64 -/

namespace Base64

def alphabet : List Char :=
  "ABCDEFGHIJKLMNOPQRSTUVWXYZabcdefghijklmnopqrstuvwxyz0123456789+/".toList

def digit (n : Nat) : Char := alphabet.getD (n % 64) 'A'

def chars : List UInt8 → List Char
  | a :: b :: c :: rest =>
    let n := a.toNat * 65536 + b.toNat * 256 + c.toNat
    digit (n / 262144) :: digit (n / 4096) :: digit (n / 64) :: digit n :: chars rest
  | [a, b] =>
    let n := a.toNat * 65536 + b.toNat * 256
    [digit (n / 262144), digit (n / 4096), digit (n / 64), '=']
  | [a] =>
    let n := a.toNat * 65536
    [digit (n / 262144), digit (n / 4096), '=', '=']
  | [] => []

end Base64

def base64 (bytes : List UInt8) : String := String.ofList (Base64.chars bytes)

/-! ## Texts in quotes -/

namespace QuotedText

def hexDigits (n : Nat) : List Char := Nat.toDigits 16 n

def isShown (c : Char) : Bool :=
  let n := c.toNat
  if n < 127 then 32 ≤ n
  else isAlphanumeric c || (!isBlank c && 0xA1 ≤ n && n ≠ 0xAD && n < 0xE000)
    || (0x1F300 ≤ n && n < 0x1FAF0)

def char (c : Char) : List Char :=
  match c with
  | '"' => ['\\', '"']
  | '\\' => ['\\', '\\']
  | '\n' => ['\\', 'n']
  | '\r' => ['\\', 'r']
  | '\t' => ['\\', 't']
  | '\x00' => ['\\', '0']
  | _ => if isShown c then [c] else '\\' :: 'u' :: '{' :: hexDigits c.toNat ++ ['}']

def text (s : String) : String := "\"" ++ String.ofList (s.toList.flatMap char) ++ "\""

end QuotedText

end ApiScript
