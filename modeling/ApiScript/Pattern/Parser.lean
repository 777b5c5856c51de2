import ApiScript.Pattern.Brackets

/-! # Reading patterns

The text of a pattern is read from left to right with a stack of the groups that are open.
-/

namespace ApiScript

namespace Pattern

/-- What was read before a group that is still open. -/
structure Group where
  choices : List Pattern
  items : List Pattern
  flags : Flags

structure State where
  groups : List Group
  /-- The choices before the last bar, the last one first. -/
  choices : List Pattern
  /-- The items after the last bar, the last one first. -/
  items : List Pattern
  repeatable : Bool
  flags : Flags
  names : List (List Char)
  rest : List Char

namespace State

def start (cs : List Char) : State := ⟨[], [], [], false, Flags.standard, [], cs⟩

def add (s : State) (p : Pattern) (rest : List Char) : State :=
  { s with items := p :: s.items, repeatable := true, rest := rest }

def content (s : State) : Pattern := eitherOf ((sequenceAll s.items.reverse) :: s.choices).reverse

def openGroup (s : State) (flags : Flags) (rest : List Char) : State :=
  { s with
    groups := ⟨s.choices, s.items, s.flags⟩ :: s.groups, choices := [], items := [],
    repeatable := false, flags := flags, rest := rest }

def closeGroup? (s : State) (rest : List Char) : Option State :=
  match s.groups with
  | [] => none
  | g :: groups =>
    some { s with
      groups := groups, choices := g.choices, items := s.content :: g.items, repeatable := true,
      flags := g.flags, rest := rest }

def repeatLast? (s : State) (least : Nat) (most : Option Nat) (rest : List Char) : Option State :=
  match s.items with
  | p :: items =>
    if s.repeatable then some { s with items := .repeated p least most :: items, rest := rest }
    else none
  | [] => none

end State

/-- What follows a sign of repetition, without the mark that asks for the fewest. -/
def afterRepeat : List Char → List Char
  | '?' :: rest => rest
  | cs => cs

def count? (cs : List Char) : Option (Nat × List Char) :=
  let digits := (cs.dropWhile isBlank).takeWhile Char.isDigit
  let rest := ((cs.dropWhile isBlank).dropWhile Char.isDigit).dropWhile isBlank
  ((naturalOf? 10 digits).filter (· < Nat.pow 2 32)).map fun n => (n, rest)

def counts? (cs : List Char) : Option (Nat × Option Nat × List Char) := do
  let (least, rest) ← count? cs
  match rest with
  | '}' :: rest => some (least, some least, rest)
  | ',' :: '}' :: rest => some (least, none, rest)
  | ',' :: rest =>
    match ← count? rest with
    | (most, '}' :: rest) => if least ≤ most then some (least, some most, rest) else none
    | _ => none
  | _ => none

def setFlag? (flags : Flags) (value : Bool) : Char → Option Flags
  | 'i' => some { flags with ignoreCase := value }
  | 'm' => some { flags with multiLine := value }
  | 's' => some { flags with dotAll := value }
  | 'U' => some flags
  | 'u' => some { flags with unicode := value }
  | 'x' => some { flags with verbose := value }
  | 'R' => some { flags with carriageReturn := value }
  | _ => none

/-- Switches flags on, and off after a minus sign; each may come once. -/
def setFlags? (flags : Flags) (value : Bool) (seen : List Char) : List Char → Option Flags
  | [] => some flags
  | c :: cs =>
    if c ∈ seen then none
    else if c = '-' then
      if cs.isEmpty then none else setFlags? flags false (c :: seen) cs
    else
      match setFlag? flags value c with
      | none => none
      | some flags => setFlags? flags value (c :: seen) cs

def isGroupNameStart (c : Char) : Bool := c == '_' || (isAlphanumeric c && !isDecimalDigit c)

def isGroupNameChar (c : Char) : Bool :=
  c == '_' || c == '.' || c == '[' || c == ']' || isAlphanumeric c

def namedGroup? (s : State) (cs : List Char) : Option State :=
  match cs.span (· ≠ '>') with
  | (c :: name, '>' :: rest) =>
    if isGroupNameStart c && name.all isGroupNameChar && !s.names.contains (c :: name) then
      some { s.openGroup s.flags rest with names := (c :: name) :: s.names }
    else none
  | _ => none

/-- What follows an opening parenthesis: a group, or flags for the rest of the group it is in. -/
def group? (s : State) : List Char → Option State
  | '?' :: 'P' :: '<' :: rest => namedGroup? s rest
  | '?' :: '<' :: rest =>
    match rest with
    | '=' :: _ => none
    | '!' :: _ => none
    | _ => namedGroup? s rest
  | '?' :: rest =>
    match rest.span fun c => c ≠ ':' ∧ c ≠ ')' with
    | (flags, ':' :: after) => (setFlags? s.flags true [] flags).map (s.openGroup · after)
    | ([], _) => none
    | (flags, ')' :: after) =>
      (setFlags? s.flags true [] flags).map fun flags =>
        { s with flags := flags, repeatable := false, rest := after }
    | _ => none
  | rest => some (s.openGroup s.flags rest)

def ofAtom (flags : Flags) : Atom → Pattern
  | .char c => .one (flags.range c c)
  | .cls c => .one c
  | .look l => .look l

def dot? (flags : Flags) : Option CharClass :=
  if !flags.unicode then none
  else if flags.dotAll then some CharClass.any
  else if flags.carriageReturn then some (.complement (.ofRanges [('\n', '\n'), ('\r', '\r')]))
  else some (.complement (.range '\n' '\n'))

def step? (s : State) (c : Char) (rest : List Char) : Option State :=
  match c with
  | '(' => group? s rest
  | ')' => s.closeGroup? rest
  | '|' =>
    some { s with
      choices := sequenceAll s.items.reverse :: s.choices, items := [], repeatable := false,
      rest := rest }
  | '[' => (brackets? s.flags rest).map fun r => s.add (.one r.1) r.2
  | '?' => s.repeatLast? 0 (some 1) (afterRepeat rest)
  | '*' => s.repeatLast? 0 none (afterRepeat rest)
  | '+' => s.repeatLast? 1 none (afterRepeat rest)
  | '{' => (counts? rest).bind fun r => s.repeatLast? r.1 r.2.1 (afterRepeat r.2.2)
  | '.' => (dot? s.flags).map fun cls => s.add (.one cls) rest
  | '^' => some (s.add (.look (if s.flags.multiLine then .lineStart else .textStart)) rest)
  | '$' => some (s.add (.look (if s.flags.multiLine then .lineEnd else .textEnd)) rest)
  | '\\' => (escape? s.flags rest).map fun r => s.add (ofAtom s.flags r.1) r.2
  | _ => some (s.add (ofAtom s.flags (.char c)) rest)

/-- Reads to the end; each step reads a character at least, so as many steps as there are
characters are enough. -/
def run? : Nat → State → Option State
  | 0, s => some s
  | steps + 1, s =>
    match Brackets.skipBlanks s.flags s.rest with
    | [] => some s
    | c :: rest => (step? s c rest).bind (run? steps)

def ofText? (text : String) : Option Pattern :=
  let cs := text.toList
  match run? cs.length (State.start cs) with
  | some s => if s.groups.isEmpty then some s.content else none
  | none => none

end Pattern

end ApiScript
