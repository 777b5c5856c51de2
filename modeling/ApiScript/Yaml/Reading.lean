import ApiScript.Json.Basic
import ApiScript.Number.Reading
import ApiScript.Yaml.Node

/-! # Values from YAML

A plain scalar is read as null, a Boolean or a number if it is written as one. The names of fields
are the texts of scalars, whatever they could be read as.
-/

namespace ApiScript

namespace Yaml

/-- What a plain scalar can be read as; numbers that are too long have no value. -/
inductive Plainly where
  | value (v : Json)
  | tooLong
  | text

def isNull (cs : List Char) : Bool := ["null", "Null", "NULL", "~"].any (·.toList = cs)

def boolOf? (cs : List Char) : Option Bool :=
  if ["true", "True", "TRUE"].any (·.toList = cs) then some true
  else if ["false", "False", "FALSE"].any (·.toList = cs) then some false
  else none

def withoutSign : List Char → List Char
  | '-' :: rest => rest
  | '+' :: rest => rest
  | cs => cs

def hasLeadingZero (cs : List Char) : Bool :=
  match withoutSign cs with
  | '0' :: c :: rest => (c :: rest).all Char.isDigit
  | _ => false

def base? : List Char → Option (Nat × List Char)
  | '0' :: 'x' :: ds => some (16, ds)
  | '0' :: 'o' :: ds => some (8, ds)
  | '0' :: 'b' :: ds => some (2, ds)
  | _ => none

def decimalNatural? (cs : List Char) : Option Nat :=
  if hasLeadingZero cs then none else naturalOf? 10 cs

def natural? (cs : List Char) : Option Nat :=
  let digits := match cs with
    | '+' :: rest => rest
    | rest => rest
  match base? digits with
  | some (base, ds) => naturalOf? base ds
  | none => if hasLeadingZero cs then none else decimalNatural? digits

def negative? (cs : List Char) : Option Nat :=
  match cs with
  | '-' :: digits =>
    match base? digits with
    | some (base, ds) => naturalOf? base ds
    | none => decimalNatural? digits
  | _ => none

/-- The value of a whole number of 64 bits; those up to 128 bits are too long. -/
def whole (cs : List Char) : Plainly :=
  match natural? cs, negative? cs with
  | some n, _ =>
    if n < Nat.pow 2 64 then .value (.number (.int n))
    else if n < Nat.pow 2 128 then .tooLong
    else .text
  | none, some n =>
    if n ≤ Nat.pow 2 63 then .value (.number (.int (-(n : Int))))
    else if n ≤ Nat.pow 2 127 then .tooLong
    else .text
  | none, none => .text

/-- A number, or what stands for an infinite one or none. -/
def float? (cs : List Char) : Option Json :=
  let unsigned := match cs with
    | '+' :: rest => rest
    | rest => rest
  if [".inf", ".Inf", ".INF"].any (·.toList = unsigned) ||
      ["-.inf", "-.Inf", "-.INF", ".nan", ".NaN", ".NAN"].any (·.toList = cs) then some .null
  else if cs.head? = some '+' ∧ withoutSign unsigned ≠ unsigned then none
  else ((floatOf? unsigned).bind FiniteNumber.ofFloat?).map fun x => .number (.float x)

def plainValue? (text : String) : Option Json :=
  let cs := text.toList
  if cs.isEmpty || isNull cs then some .null
  else
    match boolOf? cs with
    | some b => some (.bool b)
    | none =>
      match whole cs with
      | .value v => some v
      | .tooLong => none
      | .text =>
        if hasLeadingZero cs then some (.string text)
        else some ((float? cs).getD (.string text))

/-- The value of a scalar that is said to be of a kind; tags of one's own are not known. -/
def taggedValue? (tag : String) (text : String) : Option Json :=
  let cs := text.toList
  if tag.startsWith "!" then none
  else if tag = "tag:yaml.org,2002:bool" then (boolOf? cs).map .bool
  else if tag = "tag:yaml.org,2002:int" then
    match whole cs with
    | .value v => some v
    | _ => none
  else if tag = "tag:yaml.org,2002:float" then float? cs
  else if tag = "tag:yaml.org,2002:null" then if isNull cs then some .null else none
  else some (.string text)

def scalarValue? (tag : Option String) (plain : Bool) (text : String) : Option Json :=
  match tag with
  | some tag => taggedValue? tag text
  | none => if plain then plainValue? text else some (.string text)

def isKnown (tag : Option String) : Bool := tag.all fun t => !t.startsWith "!"

namespace Node

def name? : Node → Option String
  | scalar _ _ text => some text
  | _ => none

mutual

def toWritten? : Node → Option Json
  | scalar tag plain text => scalarValue? tag plain text
  | sequence tag items => if isKnown tag then (writtenItems? items).map .array else none
  | mapping tag entries => if isKnown tag then (writtenFields? entries).map .object else none

def writtenItems? : List Node → Option (List Json)
  | [] => some []
  | n :: rest =>
    match toWritten? n, writtenItems? rest with
    | some v, some vs => some (v :: vs)
    | _, _ => none

def writtenFields? : List (Node × Node) → Option (List (String × Json))
  | [] => some []
  | (k, n) :: rest =>
    match name? k, toWritten? n, writtenFields? rest with
    | some name, some v, some fields => some ((name, v) :: fields)
    | _, _, _ => none

end

def toJson? (n : Node) : Option Json := n.toWritten?.map Json.normalise

end Node

def greatestDepth : Nat := 128

def parse? (text : String) : Option Json := (Node.ofText? greatestDepth text).bind Node.toJson?

end Yaml

end ApiScript
