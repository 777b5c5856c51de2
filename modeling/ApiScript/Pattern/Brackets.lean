import ApiScript.Pattern.Escape

/-! # Classes in brackets

A class lists characters, ranges, and classes in brackets inside it. Two signs join what stands on
their sides: `&&` keeps what is on both, `--` what is on the left only, `~~` what is on one side
only; of several the first is done first.
-/

namespace ApiScript

namespace Pattern

namespace Brackets

inductive Join where
  | both
  | leftOnly
  | oneOnly

def Join.apply (a b : CharClass) : Join → CharClass
  | both => .both a b
  | leftOnly => .both a (.complement b)
  | oneOnly => .both (.union a b) (.complement (.both a b))

structure Open where
  negated : Bool
  before : Option (CharClass × Join)
  members : CharClass

def Open.add (o : Open) (c : CharClass) : Open := { o with members := .union o.members c }

def Open.joined (o : Open) : CharClass :=
  match o.before with
  | none => o.members
  | some (a, j) => j.apply a o.members

def Open.join (o : Open) (j : Join) : Open :=
  { o with before := some (o.joined, j), members := .empty }

def Open.close (o : Open) : CharClass :=
  if o.negated then .complement o.joined else o.joined

/-- What follows an opening bracket: a circumflex, minus signs, and then a closing bracket stand
there for themselves. -/
def begin (flags : Flags) (cs : List Char) : Open × List Char :=
  let (negated, cs) := match cs with
    | '^' :: rest => (true, rest)
    | _ => (false, cs)
  let dashes := (cs.takeWhile (· = '-')).length
  let o : Open := ⟨negated, none, if dashes = 0 then .empty else flags.range '-' '-'⟩
  match dashes, cs.drop dashes with
  | 0, ']' :: rest => (o.add (flags.range ']' ']'), rest)
  | _, rest => (o, rest)

def named? : List Char → Option (CharClass × List Char)
  | ':' :: cs =>
    let (negated, cs) := match cs with
      | '^' :: rest => (true, rest)
      | _ => (false, cs)
    match cs.span (· ≠ ':') with
    | (name, ':' :: ']' :: rest) =>
      (CharClass.ofName? name).map fun c => (if negated then .complement c else c, rest)
    | _ => none
  | _ => none

/-- What does not count in a verbose pattern: white space, and what follows a number sign. -/
def skipBlanks (flags : Flags) (cs : List Char) : List Char :=
  if flags.verbose then go false cs else cs
where
  go : Bool → List Char → List Char
    | _, [] => []
    | true, c :: cs => go (c != '\n') cs
    | false, c :: cs => if c = '#' then go true cs else if isBlank c then go false cs else c :: cs

def atom? (flags : Flags) : List Char → Option (Atom × List Char)
  | '\\' :: cs => escape? flags cs
  | c :: cs => some (.char c, cs)
  | [] => none

def isRangeSign (flags : Flags) : List Char → Bool
  | '-' :: rest =>
    match skipBlanks flags rest with
    | ']' :: _ => false
    | '-' :: _ => false
    | _ => true
  | _ => false

def member? (flags : Flags) (cs : List Char) : Option (CharClass × List Char) := do
  let (first, rest) ← atom? flags cs
  let rest := skipBlanks flags rest
  if isRangeSign flags rest then
    let (last, after) ← atom? flags (skipBlanks flags (rest.drop 1))
    match first, last with
    | .char a, .char b => if a ≤ b then some (flags.range a b, after) else none
    | _, _ => none
  else match first with
    | .char c => some (flags.range c c, rest)
    | .cls c => some (c, rest)
    | .look _ => none

/-- Reads on inside the innermost of the open classes; the first argument limits the steps. -/
def read? (flags : Flags) : Nat → Open → List Open → List Char → Option (CharClass × List Char)
  | 0, _, _, _ => none
  | fuel + 1, o, outer, cs =>
    match skipBlanks flags cs with
    | [] => none
    | '[' :: rest =>
      match named? rest with
      | some (c, after) => read? flags fuel (o.add c) outer after
      | none =>
        let (inner, after) := begin flags rest
        read? flags fuel inner (o :: outer) after
    | ']' :: rest =>
      match outer with
      | [] => some (o.close, rest)
      | parent :: others => read? flags fuel (parent.add o.close) others rest
    | '&' :: '&' :: rest => read? flags fuel (o.join .both) outer rest
    | '-' :: '-' :: rest => read? flags fuel (o.join .leftOnly) outer rest
    | '~' :: '~' :: rest => read? flags fuel (o.join .oneOnly) outer rest
    | cs =>
      match member? flags cs with
      | none => none
      | some (c, rest) => read? flags fuel (o.add c) outer rest

end Brackets

def brackets? (flags : Flags) (cs : List Char) : Option (CharClass × List Char) :=
  let (o, rest) := Brackets.begin flags cs
  Brackets.read? flags (rest.length + 1) o [] rest

end Pattern

end ApiScript
