import ApiScript.Environment
import ApiScript.Json.Printer

/-! # Expanding references

A reference is replaced by the text of its value, or else by its expanded alternative, or else it
stays as it is written; so do braces that form no reference. What is put in is not looked at again.
-/

namespace ApiScript

namespace Expansion

def chars (lookup : List Char → Option Json) : List Char → List Char
  | [] => []
  | c :: cs =>
    if c = '{' then
      match h : Reference.read? cs with
      | none => c :: chars lookup cs
      | some (r, rest) =>
        have := Reference.length_lt_of_read? h
        (match lookup r.name with
          | some v => v.asText.toList
          | none =>
            match ha : r.alt with
            | some alt =>
              have := Reference.length_alt_lt_of_read? h ha
              chars lookup alt
            | none => r.written) ++ chars lookup rest
    else c :: chars lookup cs
termination_by cs => cs.length

/-- The value of a text that consists of one reference: the value of its name, or else that of its
alternative, which is the expanded text unless it consists of a reference with a value. -/
def nodeValue? (lookup : List Char → Option Json) (cs : List Char) : Option Json :=
  match h : Reference.ofNode? cs with
  | none => none
  | some r =>
    match lookup r.name with
    | some v => some v
    | none =>
      match ha : r.alt with
      | none => none
      | some alt =>
        have := Reference.length_alt_lt_of_ofNode? h ha
        match nodeValue? lookup alt with
        | some v => some v
        | none => some (.string (String.ofList (chars lookup alt)))
termination_by cs.length

/-- Expands a text; one that consists of a reference becomes the value. -/
def text (lookup : List Char → Option Json) (s : String) : Json :=
  match nodeValue? lookup s.toList with
  | some v => v
  | none => .string (String.ofList (chars lookup s.toList))

mutual

/-- Expands every text in a value, the names of fields included. -/
def value (lookup : List Char → Option Json) : Json → Json
  | .string s => text lookup s
  | .array items => .array (values lookup items)
  | .object fields => .object (Fields.ofList (fieldValues lookup fields))
  | other => other

def values (lookup : List Char → Option Json) : List Json → List Json
  | [] => []
  | x :: xs => value lookup x :: values lookup xs

def fieldValues (lookup : List Char → Option Json) : List (String × Json) → List (String × Json)
  | [] => []
  | (n, x) :: xs =>
    (String.ofList (chars lookup n.toList), value lookup x) :: fieldValues lookup xs

end

end Expansion

namespace Environment

def expand (env : Environment) (s : String) : String :=
  String.ofList (Expansion.chars env.lookup s.toList)

/-- Expands every text in a value; a text that consists of a reference becomes its value. -/
def expandValue (env : Environment) (v : Json) : Json := Expansion.value env.lookup v

def nodeValue? (env : Environment) (s : String) : Option Json :=
  Expansion.nodeValue? env.lookup s.toList

end Environment

/-- Whether a text consists of one reference, apart from white space around it. -/
def isValueNode (s : String) : Bool := (Reference.ofNode? s.toList).isSome

end ApiScript
