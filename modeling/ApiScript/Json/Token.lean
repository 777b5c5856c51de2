import ApiScript.Json.Numeral

/-! # The tokens of JSON text

One pass over the characters; what has been read of a token is the state of the pass.
-/

namespace ApiScript

inductive JsonToken where
  | openArray
  | closeArray
  | openObject
  | closeObject
  | comma
  | colon
  | scalar (v : Json)

namespace JsonToken

/-- What has been read of a token that has not ended; texts stand in reverse. -/
inductive Reading where
  | between
  | word (text : List Char)
  | numeral (text : List Char)
  | quoted (text : List Char)
  | escape (text : List Char)
  /-- Inside a four-digit escape, perhaps the second one of a pair. -/
  | code (text : List Char) (high : Option Nat) (digits : Nat) (value : Nat)
  | pair (text : List Char) (high : Nat)
  | pairEscape (text : List Char) (high : Nat)

def hexValue? (c : Char) : Option Nat :=
  if '0' ≤ c ∧ c ≤ '9' then some (c.toNat - 48)
  else if 'a' ≤ c ∧ c ≤ 'f' then some (c.toNat - 87)
  else if 'A' ≤ c ∧ c ≤ 'F' then some (c.toNat - 55)
  else none

def begin? (out : List JsonToken) (c : Char) : Option (Reading × List JsonToken) :=
  match c with
  | ' ' | '\t' | '\n' | '\r' => some (.between, out)
  | '[' => some (.between, .openArray :: out)
  | ']' => some (.between, .closeArray :: out)
  | '\x7b' => some (.between, .openObject :: out)
  | '\x7d' => some (.between, .closeObject :: out)
  | ',' => some (.between, .comma :: out)
  | ':' => some (.between, .colon :: out)
  | '"' => some (.quoted [], out)
  | '-' => some (.numeral [c], out)
  | _ =>
    if c.isDigit then some (.numeral [c], out)
    else if c.isLower then some (.word [c], out)
    else none

def ofWord? (text : List Char) : Option JsonToken :=
  match String.ofList text.reverse with
  | "null" => some (.scalar .null)
  | "true" => some (.scalar (.bool true))
  | "false" => some (.scalar (.bool false))
  | _ => none

def ofNumeral? (text : List Char) : Option JsonToken :=
  (JsonNumber.ofText? text.reverse).map fun n => .scalar (.number n)

def escaped? (c : Char) : Option Char :=
  match c with
  | '"' => some '"'
  | '\\' => some '\\'
  | '/' => some '/'
  | 'b' => some '\x08'
  | 'f' => some '\x0c'
  | 'n' => some '\n'
  | 'r' => some '\r'
  | 't' => some '\t'
  | _ => none

/-- The state after a four-digit escape of `value`. Two escapes of the surrogate ranges, high and
low, make one character; one alone makes none. -/
def endCode (text : List Char) (high : Option Nat) (value : Nat) : Option Reading :=
  match high with
  | some h =>
    if 0xDC00 ≤ value ∧ value ≤ 0xDFFF then
      some (.quoted (Char.ofNat (0x10000 + (h - 0xD800) * 0x400 + (value - 0xDC00)) :: text))
    else none
  | none =>
    if 0xD800 ≤ value ∧ value ≤ 0xDBFF then some (.pair text value)
    else if 0xDC00 ≤ value ∧ value ≤ 0xDFFF then none
    else some (.quoted (Char.ofNat value :: text))

def step? (state : Reading × List JsonToken) (c : Char) : Option (Reading × List JsonToken) :=
  let out := state.2
  match state.1 with
  | .between => begin? out c
  | .word text =>
    if c.isLower then some (.word (c :: text), out)
    else (ofWord? text).bind fun t => begin? (t :: out) c
  | .numeral text =>
    if c.isDigit || c == '.' || c == 'e' || c == 'E' || c == '+' || c == '-' then
      some (.numeral (c :: text), out)
    else (ofNumeral? text).bind fun t => begin? (t :: out) c
  | .quoted text =>
    if c = '"' then some (.between, .scalar (.string (String.ofList text.reverse)) :: out)
    else if c = '\\' then some (.escape text, out)
    else if c.toNat < 32 then none
    else some (.quoted (c :: text), out)
  | .escape text =>
    if c = 'u' then some (.code text none 0 0, out)
    else (escaped? c).map fun e => (.quoted (e :: text), out)
  | .code text high digits value =>
    (hexValue? c).bind fun d =>
      if digits = 3 then (endCode text high (value * 16 + d)).map (·, out)
      else some (.code text high (digits + 1) (value * 16 + d), out)
  | .pair text high => if c = '\\' then some (.pairEscape text high, out) else none
  | .pairEscape text high => if c = 'u' then some (.code text (some high) 0 0, out) else none

def all? (cs : List Char) : Option (List JsonToken) :=
  match cs.foldlM step? (.between, []) with
  | none => none
  | some (state, out) =>
    match state with
    | .between => some out.reverse
    | .word text => (ofWord? text).map fun t => (t :: out).reverse
    | .numeral text => (ofNumeral? text).map fun t => (t :: out).reverse
    | _ => none

end JsonToken

end ApiScript
