import ApiScript.Reference
import ApiScript.Text.Encoding
import ApiScript.Url.Punycode

/-! # Hosts in URLs

A host is a name, or an address in one of two notations. A name whose last part is a number has to
be an address.
-/

namespace ApiScript

namespace HostName

def splitOn (c : Char) : List Char → List (List Char)
  | [] => [[]]
  | x :: xs =>
    if x = c then [] :: splitOn c xs
    else
      match splitOn c xs with
      | [] => [[x]]
      | part :: parts => (x :: part) :: parts

def percentDecode : List Char → List UInt8
  | '%' :: a :: b :: rest =>
    if isHexDigit a && isHexDigit b then
      ((digitValue? a).getD 0 * 16 + (digitValue? b).getD 0).toUInt8 :: percentDecode rest
    else '%'.toUInt8 :: percentDecode (a :: b :: rest)
  | c :: rest => (String.ofList [c]).toUTF8.toList ++ percentDecode rest
  | [] => []

/-- A number in one of three bases: `none` when it is none, and no value when it is too great. -/
def number? (cs : List Char) : Option (Option Nat) :=
  if cs.isEmpty then none
  else
    let (base, digits) := match cs with
      | '0' :: 'x' :: ds => (16, ds)
      | '0' :: 'X' :: ds => (16, ds)
      | '0' :: d :: ds => (8, d :: ds)
      | ds => (10, ds)
    if digits.isEmpty then some (some 0)
    else (naturalOf? base digits).map fun n => if n < Nat.pow 2 32 then some n else none

def withoutLastEmpty (parts : List (List Char)) : List (List Char) :=
  if parts.getLast? = some [] then parts.dropLast else parts

def endsInNumber (host : List Char) : Bool :=
  match (withoutLastEmpty (splitOn '.' host)).getLast? with
  | none => false
  | some last => (!last.isEmpty && last.all Char.isDigit) || (number? last).isSome

/-- An address of four bytes, of which the last number given fills what is left. -/
def address4? (host : List Char) : Option (List Char) := do
  let numbers ← ((withoutLastEmpty (splitOn '.' host)).mapM fun p => (number? p).bind id)
  let last ← numbers.getLast?
  let firsts := numbers.dropLast
  if 3 < firsts.length ∨ firsts.any (255 < ·) ∨ Nat.pow 256 (4 - firsts.length) ≤ last then none
  else
    let value := firsts.zipIdx.foldr (fun p n => p.1 * Nat.pow 256 (3 - p.2) + n) last
    let byte (i : Nat) := Nat.toDigits 10 (value / Nat.pow 256 i % 256)
    some (byte 3 ++ '.' :: byte 2 ++ '.' :: byte 1 ++ '.' :: byte 0)

/-- The groups of an address of eight, of which the last two may be written as four bytes. -/
def groups? : List (List Char) → Option (List Nat)
  | [] => some []
  | [last] =>
    if last.contains '.' then
      let bytes := splitOn '.' last
      let plain := bytes.all fun b => b.length ≤ 3 ∧ (b.length = 1 ∨ b.head? ≠ some '0')
      match bytes.mapM (naturalOf? 10) with
      | some [a, b, c, d] =>
        if plain && [a, b, c, d].all (· ≤ 255) then some [a * 256 + b, c * 256 + d] else none
      | _ => none
    else if last.length ≤ 4 then (naturalOf? 16 last).map fun n => [n] else none
  | g :: rest =>
    if g.length ≤ 4 then
      match naturalOf? 16 g, groups? rest with
      | some n, some ns => some (n :: ns)
      | _, _ => none
    else none

def splitAtGap : List Char → Option (List Char × List Char)
  | ':' :: ':' :: rest => some ([], rest)
  | c :: rest => (splitAtGap rest).map fun r => (c :: r.1, r.2)
  | [] => none

def groupsOf? (cs : List Char) : Option (List Nat) :=
  if cs.isEmpty then some [] else groups? (splitOn ':' cs)

/-- An address of eight groups; two colons stand for groups of zeros. -/
def groups8? (cs : List Char) : Option (List Nat) :=
  match splitAtGap cs with
  | none => (groupsOf? cs).filter (·.length = 8)
  | some (before, after) =>
    match groupsOf? before, groupsOf? after with
    | some a, some b =>
      if before.contains '.' ∨ 7 < a.length + b.length then none
      else some (a ++ List.replicate (8 - a.length - b.length) 0 ++ b)
    | _, _ => none

def longestZeros (groups : List Nat) : Nat × Nat :=
  (List.range groups.length).foldl (fun best i =>
    let run := ((groups.drop i).takeWhile (· = 0)).length
    if best.1 < run then (run, i) else best) (0, 0)

def joinGroups (groups : List Nat) : List Char :=
  [':'].intercalate (groups.map (Nat.toDigits 16))

def render8 (groups : List Nat) : List Char :=
  let (run, place) := longestZeros groups
  let text :=
    if run < 2 then joinGroups groups
    else joinGroups (groups.take place) ++ ':' :: ':' :: joinGroups (groups.drop (place + run))
  '[' :: text ++ [']']

def lower (c : Char) : Char :=
  let n := c.toNat
  if n < 128 then c.toLower
  else if (0xC0 ≤ n ∧ n ≤ 0xDE ∧ n ≠ 0xD7) ∨ (0x391 ≤ n ∧ n ≤ 0x3AB ∧ n ≠ 0x3A2) ∨
      (0x410 ≤ n ∧ n ≤ 0x42F) then Char.ofNat (n + 32)
  else if 0x400 ≤ n ∧ n ≤ 0x40F then Char.ofNat (n + 80)
  else if 0x100 ≤ n ∧ n ≤ 0x137 ∧ n % 2 = 0 then Char.ofNat (n + 1)
  else if 0xFF01 ≤ n ∧ n ≤ 0xFF5E then (Char.ofNat (n - 0xFEE0)).toLower
  else if n = 0x3002 ∨ n = 0xFF61 then '.'
  else c

def label (cs : List Char) : List Char :=
  if cs.all fun c => c.toNat < 128 then cs else 'x' :: 'n' :: '-' :: '-' :: Punycode.encode cs

def isForbidden (c : Char) : Bool :=
  c.toNat ≤ 32 || c.toNat == 127 || "#/:<>?@[\\]^|%".toList.contains c

def name? (cs : List Char) : Option (List Char) :=
  let decoded := Utf8.decode none (percentDecode cs)
  let name := ['.'].intercalate ((splitOn '.' (decoded.map lower)).map label)
  if name.isEmpty || name.any isForbidden || decoded.contains Utf8.replacement then none
  else some name

def normal? (cs : List Char) : Option (List Char) :=
  match cs with
  | '[' :: rest =>
    if rest.getLast? = some ']' then (groups8? rest.dropLast).map render8 else none
  | _ =>
    match name? cs with
    | none => none
    | some name => if endsInNumber name then address4? name else some name

end HostName

end ApiScript
