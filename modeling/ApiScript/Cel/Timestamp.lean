import ApiScript.Text.Basic

/-! # Points in time

A point in time is a number of nanoseconds before or after the start of 1970, with the distance in
seconds of the clock by which it is shown. Days are counted in the calendar that leaves out the leap
days of three of four centuries.
-/

namespace ApiScript

structure Date where
  year : Int
  month : Nat
  day : Nat

namespace Date

def isLeapYear (y : Int) : Bool := y % 4 == 0 && (y % 100 != 0 || y % 400 == 0)

def daysInMonth (y : Int) : Nat → Nat
  | 2 => if isLeapYear y then 29 else 28
  | 4 => 30
  | 6 => 30
  | 9 => 30
  | 11 => 30
  | _ => 31

def daysBeforeYear (y : Int) : Int :=
  let past := y - 1
  365 * (y - 1970) + (Int.fdiv past 4 - Int.fdiv past 100 + Int.fdiv past 400) - 477

def daysBeforeMonth (y : Int) (m : Nat) : Nat :=
  (List.range (m - 1)).foldr (fun i days => daysInMonth y (i + 1) + days) 0

def toDays (d : Date) : Int :=
  daysBeforeYear d.year + daysBeforeMonth d.year d.month + (d.day : Int) - 1

def inYear (y : Int) (dayOfYear : Nat) : Nat → Nat → Date
  | 0, m => ⟨y, m, dayOfYear + 1⟩
  | fuel + 1, m =>
    if dayOfYear < daysInMonth y m then ⟨y, m, dayOfYear + 1⟩
    else inYear y (dayOfYear - daysInMonth y m) fuel (m + 1)

/-- The day so many days after the start of 1970. A first guess of the year is off by one at
most. -/
def ofDays (days : Int) : Date :=
  let guess := 1970 + Int.fdiv (days * 400) 146097
  let year :=
    if days < daysBeforeYear guess then guess - 1
    else if daysBeforeYear (guess + 1) ≤ days then guess + 1
    else guess
  inYear year (days - daysBeforeYear year).toNat 12 1

end Date

structure Timestamp where
  nanoseconds : Int
  offset : Int

namespace Timestamp

def nanosPerSecond : Int := 1000000000

def clockSeconds (t : Timestamp) : Int := Int.fdiv t.nanoseconds nanosPerSecond + t.offset

def subsecond (t : Timestamp) : Nat := (t.nanoseconds % nanosPerSecond).toNat

def date (t : Timestamp) : Date := Date.ofDays (Int.fdiv t.clockSeconds 86400)

def secondOfDay (t : Timestamp) : Nat := (t.clockSeconds % 86400).toNat

def dayOfWeek (t : Timestamp) : Nat := ((Int.fdiv t.clockSeconds 86400 + 4) % 7).toNat

def dayOfYear (t : Timestamp) : Nat :=
  (t.date.toDays - Date.daysBeforeYear t.date.year).toNat

def digitsOf (width n : Nat) : List Char :=
  let ds := Nat.toDigits 10 n
  List.replicate (width - ds.length) '0' ++ ds

/-- A fraction of a second in as many groups of three digits as it needs. -/
def fractionText (n : Nat) : List Char :=
  if n = 0 then []
  else if n % 1000000 = 0 then '.' :: digitsOf 3 (n / 1000000)
  else if n % 1000 = 0 then '.' :: digitsOf 6 (n / 1000)
  else '.' :: digitsOf 9 n

def offsetText (offset : Int) : List Char :=
  let minutes := offset.natAbs / 60
  (if offset < 0 then '-' else '+') :: digitsOf 2 (minutes / 60) ++ ':' :: digitsOf 2 (minutes % 60)

def render (t : Timestamp) : String :=
  let d := t.date
  let s := t.secondOfDay
  String.ofList (digitsOf 4 d.year.toNat ++ '-' :: digitsOf 2 d.month ++ '-' :: digitsOf 2 d.day ++
    'T' :: digitsOf 2 (s / 3600) ++ ':' :: digitsOf 2 (s / 60 % 60) ++ ':' :: digitsOf 2 (s % 60) ++
    fractionText t.subsecond ++ offsetText t.offset)

def number? (width least greatest : Nat) (cs : List Char) : Option (Nat × List Char) :=
  let ds := cs.take width
  if ds.length = width ∧ ds.all Char.isDigit then
    ((naturalOf? 10 ds).filter fun n => least ≤ n ∧ n ≤ greatest).map fun n => (n, cs.drop width)
  else none

def sign? (allowed : List Char) : List Char → Option (List Char)
  | c :: cs => if c ∈ allowed then some cs else none
  | [] => none

/-- The nanoseconds of a fraction, of which nine digits count. -/
def fraction? : List Char → Option (Nat × List Char)
  | '.' :: cs =>
    let ds := cs.takeWhile Char.isDigit
    (naturalOf? 10 ((ds ++ List.replicate 9 '0').take 9)).bind fun n =>
      if ds.isEmpty then none else some (n, cs.dropWhile Char.isDigit)
  | cs => some (0, cs)

def offset? (cs : List Char) : Option Int :=
  match cs with
  | [c] => if c = 'Z' ∨ c = 'z' then some 0 else none
  | s :: rest => do
    let ahead ← if s = '+' then some true
      else if s = '-' ∨ s = '\u2212' then some false else none
    let (hours, rest) ← number? 2 0 23 rest
    let (minutes, rest) ← number? 2 0 59 (← sign? [':'] rest)
    let size : Int := hours * 3600 + minutes * 60
    if rest.isEmpty then some (if ahead then size else -size) else none
  | [] => none

def ofText? (text : String) : Option Timestamp := do
  let (year, cs) ← number? 4 0 9999 text.toList
  let (month, cs) ← number? 2 1 12 (← sign? ['-'] cs)
  let (day, cs) ← number? 2 1 (Date.daysInMonth year month) (← sign? ['-'] cs)
  let (hour, cs) ← number? 2 0 23 (← sign? ['T', 't', ' '] cs)
  let (minute, cs) ← number? 2 0 59 (← sign? [':'] cs)
  let (second, cs) ← number? 2 0 60 (← sign? [':'] cs)
  let (nanos, cs) ← fraction? cs
  let offset ← offset? cs
  let days := Date.toDays ⟨year, month, day⟩
  let seconds := days * 86400 + hour * 3600 + minute * 60 + second - offset
  return ⟨seconds * nanosPerSecond + nanos, offset⟩

/-- The earliest and the latest point that arithmetic reaches: the years 1 to 9999. -/
def earliest : Int := -62135596800 * nanosPerSecond

def latest : Int := 253402300800 * nanosPerSecond - 1

def move? (t : Timestamp) (nanoseconds : Int) : Option Timestamp :=
  let n := t.nanoseconds + nanoseconds
  if earliest ≤ n ∧ n ≤ latest then some { t with nanoseconds := n } else none

end Timestamp

end ApiScript
