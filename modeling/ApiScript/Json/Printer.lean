import ApiScript.Json.Basic
import ApiScript.Number.Shortest

/-! # JSON text

The compact form has no space between its tokens; the indented form puts every item and field on a
line of its own, two blanks further in.
-/

namespace ApiScript

/-- Numbers have a point or an exponent, written from `1e+16` up and below `0.00001`. -/
def jsonDecimals : DecimalLayout where
  leastPoint := -4
  greatestPoint := 16
  pointZero := true
  plus := "+"

def JsonNumber.render : JsonNumber → String
  | .int n => toString n
  | .float x => x.1.render jsonDecimals

namespace Json

def hexDigit (n : Nat) : Char :=
  if n < 10 then Char.ofNat (48 + n) else Char.ofNat (87 + n)

/-- A character inside quotes: the quote, the backslash and what is below the blank are escaped. -/
def escapeChar (c : Char) : List Char :=
  match c with
  | '"' => ['\\', '"']
  | '\\' => ['\\', '\\']
  | '\n' => ['\\', 'n']
  | '\r' => ['\\', 'r']
  | '\t' => ['\\', 't']
  | _ =>
    if c.toNat = 8 then ['\\', 'b']
    else if c.toNat = 12 then ['\\', 'f']
    else if c.toNat < 32 then
      ['\\', 'u', '0', '0', hexDigit (c.toNat / 16), hexDigit (c.toNat % 16)]
    else [c]

def quote (s : String) : String :=
  "\"" ++ String.ofList (s.toList.flatMap escapeChar) ++ "\""

mutual

def render : Json → String
  | .null => "null"
  | .bool b => if b then "true" else "false"
  | .number n => n.render
  | .string s => quote s
  | .array items => "[" ++ renderItems items ++ "]"
  | .object fields => "\x7b" ++ renderFields fields ++ "\x7d"

def renderItems : List Json → String
  | [] => ""
  | [x] => render x
  | x :: y :: rest => render x ++ "," ++ renderItems (y :: rest)

def renderFields : List (String × Json) → String
  | [] => ""
  | [(n, x)] => quote n ++ ":" ++ render x
  | (n, x) :: y :: rest => quote n ++ ":" ++ render x ++ "," ++ renderFields (y :: rest)

end

def newline (depth : Nat) : String := "\n" ++ String.ofList (List.replicate (2 * depth) ' ')

mutual

def renderIndented (depth : Nat) : Json → String
  | .array (x :: xs) =>
    "[" ++ newline (depth + 1) ++ renderIndented (depth + 1) x ++
      indentedItems (depth + 1) xs ++ newline depth ++ "]"
  | .object ((n, x) :: xs) =>
    "\x7b" ++ newline (depth + 1) ++ quote n ++ ": " ++ renderIndented (depth + 1) x ++
      indentedFields (depth + 1) xs ++ newline depth ++ "\x7d"
  | .array [] => "[]"
  | .object [] => "\x7b\x7d"
  | .null => "null"
  | .bool b => if b then "true" else "false"
  | .number n => n.render
  | .string s => quote s

def indentedItems (depth : Nat) : List Json → String
  | [] => ""
  | x :: xs => "," ++ newline depth ++ renderIndented depth x ++ indentedItems depth xs

def indentedFields (depth : Nat) : List (String × Json) → String
  | [] => ""
  | (n, x) :: xs =>
    "," ++ newline depth ++ quote n ++ ": " ++ renderIndented depth x ++ indentedFields depth xs

end

/-- The text of a value inside other text: a string as it is, anything else as JSON. -/
def asText : Json → String
  | .string s => s
  | other => other.render

end Json

end ApiScript
