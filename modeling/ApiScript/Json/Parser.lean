import ApiScript.Json.Token

/-! # Reading JSON text

The tokens drive a stack of the lists and objects that are open. The value read keeps the fields of
an object as they were written; `Json.parse?` puts them into order.
-/

namespace ApiScript

namespace JsonParser

/-- A list or an object that has not been closed; its parts stand in reverse. -/
inductive Frame where
  | items (done : List Json)
  | fields (done : List (String × Json)) (name : String)

inductive Expects where
  | value
  | firstItem
  | firstName (done : List (String × Json))
  | name (done : List (String × Json))
  | colon (done : List (String × Json)) (name : String)
  /-- A comma or the end of what is open; nothing when all is closed. -/
  | afterValue (v : Json)

structure State where
  stack : List Frame
  expects : Expects

def greatestDepth : Nat := 127

/-- Opens a list or an object inside `stack`. An object is on the stack once a name is known, so
one whose name is read counts as open too. -/
def openIn? (stack : List Frame) (first : Expects) : Option State :=
  if stack.length < greatestDepth then some ⟨stack, first⟩ else none

def beginValue? (stack : List Frame) : JsonToken → Option State
  | .scalar v => some ⟨stack, .afterValue v⟩
  | .openArray => openIn? stack .firstItem
  | .openObject => openIn? stack (.firstName [])
  | _ => none

def step? (s : State) (t : JsonToken) : Option State :=
  match s.expects with
  | .value => beginValue? s.stack t
  | .firstItem =>
    match t with
    | .closeArray => some ⟨s.stack, .afterValue (.array [])⟩
    | _ => beginValue? (.items [] :: s.stack) t
  | .firstName done =>
    match t with
    | .closeObject => some ⟨s.stack, .afterValue (.object [])⟩
    | .scalar (.string name) => some ⟨s.stack, .colon done name⟩
    | _ => none
  | .name done =>
    match t with
    | .scalar (.string name) => some ⟨s.stack, .colon done name⟩
    | _ => none
  | .colon done name =>
    match t with
    | .colon => some ⟨.fields done name :: s.stack, .value⟩
    | _ => none
  | .afterValue v =>
    match s.stack, t with
    | .items done :: rest, .comma => some ⟨.items (v :: done) :: rest, .value⟩
    | .items done :: rest, .closeArray => some ⟨rest, .afterValue (.array (v :: done).reverse)⟩
    | .fields done name :: rest, .comma => some ⟨rest, .name ((name, v) :: done)⟩
    | .fields done name :: rest, .closeObject =>
      some ⟨rest, .afterValue (.object ((name, v) :: done).reverse)⟩
    | _, _ => none

end JsonParser

/-- The value of a text, with the fields of objects as they are written. -/
def Json.parseWritten? (text : String) : Option Json :=
  match (JsonToken.all? text.toList).bind fun ts => ts.foldlM JsonParser.step? ⟨[], .value⟩ with
  | some ⟨[], .afterValue v⟩ => some v
  | _ => none

def Json.parse? (text : String) : Option Json := (Json.parseWritten? text).map Json.normalise

end ApiScript
