import ApiScript.Text.Basic
import ApiScript.Text.Character

/-! # References to variables

A reference is written with its name between braces, perhaps followed by a bar and an alternative
text in which braces are balanced. A name is a run of letters, digits and a few marks. The names of
code points, a `U`, a plus sign and four to six hexadecimal digits, are reserved.
-/

namespace ApiScript

def isNameChar (c : Char) : Bool :=
  isAlphanumeric c || c == '_' || c == '-' || c == '.' || c == '$' || c == '+'

def isHexDigit (c : Char) : Bool :=
  ('0' ≤ c && c ≤ '9') || ('a' ≤ c && c ≤ 'f') || ('A' ≤ c && c ≤ 'F')

namespace CodePoint

def areDigits (ds : List Char) : Bool :=
  4 ≤ ds.length && ds.length ≤ 6 && ds.all isHexDigit

def digits? : List Char → Option (List Char)
  | 'U' :: '+' :: ds => if areDigits ds then some ds else none
  | 'u' :: '+' :: ds => if areDigits ds then some ds else none
  | _ => none

/-- Whether a name is reserved. -/
def isName (name : List Char) : Bool := (digits? name).isSome

def charOf? (n : Nat) : Option Char := if h : n.isValidChar then some (Char.ofNatAux n h) else none

/-- The character that a reserved name stands for, if it stands for one. -/
def char? (name : List Char) : Option Char :=
  (digits? name).bind fun ds => (naturalOf? 16 ds).bind charOf?

end CodePoint

structure Reference where
  name : List Char
  alt : Option (List Char)
  deriving DecidableEq

namespace Reference

/-- Splits a text at the brace that closes it; `depth` braces have been opened inside. -/
def splitAtClosing : Nat → List Char → Option (List Char × List Char)
  | _, [] => none
  | 0, '}' :: cs => some ([], cs)
  | depth, c :: cs =>
    let inner := if c = '{' then depth + 1 else if c = '}' then depth - 1 else depth
    match splitAtClosing inner cs with
    | none => none
    | some (before, after) => some (c :: before, after)

def afterName? (name : List Char) : List Char → Option (Reference × List Char)
  | '}' :: rest => some (⟨name, none⟩, rest)
  | '|' :: rest =>
    match splitAtClosing 0 rest with
    | none => none
    | some (alt, after) => some (⟨name, some alt⟩, after)
  | _ => none

/-- Reads a reference, whose opening brace has been read, and gives what follows it. -/
def read? (cs : List Char) : Option (Reference × List Char) :=
  if (cs.takeWhile isNameChar).isEmpty then none
  else afterName? (cs.takeWhile isNameChar) (cs.dropWhile isNameChar)

def written (r : Reference) : List Char :=
  match r.alt with
  | none => '{' :: r.name ++ ['}']
  | some alt => '{' :: r.name ++ '|' :: alt ++ ['}']

theorem length_splitAtClosing {depth : Nat} {cs before after : List Char}
    (h : splitAtClosing depth cs = some (before, after)) :
    before.length + after.length + 1 = cs.length := by
  fun_induction splitAtClosing depth cs generalizing before after with
  | case1 => simp at h
  | case2 cs => simp only [Option.some.injEq, Prod.mk.injEq] at h; simp [← h.1, ← h.2]
  | case3 => simp at h
  | case4 depth c cs _ inner before' after' hsome =>
    rename_i ih
    simp only [Option.some.injEq, Prod.mk.injEq] at h
    have := ih hsome
    simp only [← h.1, ← h.2, List.length_cons]
    omega

theorem length_lt_of_afterName? {name cs rest : List Char} {r : Reference}
    (h : afterName? name cs = some (r, rest)) : rest.length < cs.length := by
  unfold afterName? at h
  split at h
  · simp only [Option.some.injEq, Prod.mk.injEq] at h; simp [← h.2]
  · split at h
    · simp at h
    · next hs =>
      simp only [Option.some.injEq, Prod.mk.injEq] at h
      have := length_splitAtClosing hs
      simp only [← h.2, List.length_cons]
      omega
  · simp at h

theorem length_alt_lt_of_afterName? {name cs rest alt : List Char} {r : Reference}
    (h : afterName? name cs = some (r, rest)) (ha : r.alt = some alt) :
    alt.length < cs.length := by
  unfold afterName? at h
  split at h
  · simp only [Option.some.injEq, Prod.mk.injEq] at h; simp [← h.1] at ha
  · split at h
    · simp at h
    · next hs =>
      simp only [Option.some.injEq, Prod.mk.injEq] at h
      have := length_splitAtClosing hs
      simp only [← h.1, Option.some.injEq] at ha
      simp only [← ha, List.length_cons]
      omega
  · simp at h

theorem length_lt_of_read? {cs rest : List Char} {r : Reference}
    (h : read? cs = some (r, rest)) : rest.length < cs.length := by
  have hle : (cs.dropWhile isNameChar).length ≤ cs.length := (List.dropWhile_sublist _).length_le
  unfold read? at h
  split at h
  · simp at h
  · have := length_lt_of_afterName? h
    omega

theorem length_alt_lt_of_read? {cs rest alt : List Char} {r : Reference}
    (h : read? cs = some (r, rest)) (ha : r.alt = some alt) : alt.length < cs.length := by
  have hle : (cs.dropWhile isNameChar).length ≤ cs.length := (List.dropWhile_sublist _).length_le
  unfold read? at h
  split at h
  · simp at h
  · have := length_alt_lt_of_afterName? h ha
    omega

/-- The reference that a text consists of, apart from white space around it. -/
def ofNode? (cs : List Char) : Option Reference :=
  match trimBlanks cs with
  | '{' :: rest =>
    match read? rest with
    | some (r, []) => some r
    | _ => none
  | _ => none

theorem length_trimBlanks_le (cs : List Char) : (trimBlanks cs).length ≤ cs.length := by
  unfold trimBlanks
  rw [List.length_reverse]
  refine Nat.le_trans (List.dropWhile_sublist _).length_le ?_
  rw [List.length_reverse]
  exact (List.dropWhile_sublist _).length_le

theorem length_alt_lt_of_ofNode? {cs alt : List Char} {r : Reference}
    (h : ofNode? cs = some r) (ha : r.alt = some alt) : alt.length < cs.length := by
  have hle := length_trimBlanks_le cs
  unfold ofNode? at h
  split at h
  · next rest ht =>
    split at h
    · next r' hr =>
      simp at h
      subst h
      have := length_alt_lt_of_read? hr ha
      simp [ht] at hle
      omega
    · simp at h
  · simp at h

end Reference

end ApiScript
