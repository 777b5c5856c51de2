import ApiScript.Json.Parser
import ApiScript.Table

/-! # Requests and responses -/

namespace ApiScript

def asciiLower (s : String) : String := String.ofList (s.toList.map Char.toLower)

inductive Method where
  | get
  | post
  | put
  | delete
  | patch
  | head
  deriving DecidableEq

namespace Method

/-- The methods in the order in which a script is searched for them. -/
def all : List Method := [.get, .post, .put, .delete, .patch, .head]

def text : Method → String
  | .get => "GET"
  | .post => "POST"
  | .put => "PUT"
  | .delete => "DELETE"
  | .patch => "PATCH"
  | .head => "HEAD"

def ofText? (text : String) : Option Method := all.find? fun m => m.text = text

end Method

/-- A request as it is sent. Headers keep the order in which they were put in. -/
structure Request where
  method : Method
  url : String
  headers : Table String
  body : Option String

namespace Request

/-- Whether a header is there; the case of Latin letters does not count. -/
def hasHeader (r : Request) (name : String) : Bool :=
  r.headers.names.any fun n => asciiLower n == asciiLower name

def toJson (r : Request) : Json :=
  .object [
    ("body", match r.body with | none => .null | some b => .string b),
    ("headers", .object (Fields.ofList (r.headers.entries.map fun e => (e.1, Json.string e.2)))),
    ("method", .string r.method.text),
    ("url", .string r.url)]

end Request

/-- A response as it was received. Headers are found by their names in small letters. -/
structure Response where
  status : Nat
  headers : Fields String
  body : String

namespace Response

def header? (r : Response) (name : String) : Option String :=
  Fields.get? (asciiLower name) r.headers

def json? (r : Response) : Option Json := Json.parse? r.body

def toJson (r : Response) : Json :=
  .object [
    ("body", .string r.body),
    ("headers", .object (r.headers.map fun e => (e.1, Json.string e.2))),
    ("status", Json.ofNat r.status)]

end Response

def textFields? : List (String × Json) → Option (List (String × String))
  | [] => some []
  | (n, .string s) :: rest => (textFields? rest).map ((n, s) :: ·)
  | _ => none

namespace Request

/-- A method given by its name, alone or as the only field, without a value, of an object. -/
def methodOf? : Json → Option Method
  | .string s => Method.ofText? s
  | .object [(s, .null)] => Method.ofText? s
  | _ => none

def bodyOf? : Json → Option (Option String)
  | .null => some none
  | .string s => some (some s)
  | _ => none

def headersOf? : Json → Option (Table String)
  | .object fields => (textFields? fields).map Table.ofList
  | _ => none

def ofParts? (method url headers body : Option Json) : Option Request := do
  let m ← method >>= methodOf?
  let u ← match url with
    | some (.string s) => some s
    | _ => none
  let h ← match headers with
    | none => some Table.empty
    | some v => headersOf? v
  let b ← match body with
    | none => some none
    | some v => bodyOf? v
  return ⟨m, u, h, b⟩

/-- Reads a request from an object with the parts as fields, or from a list of the parts. Fields
of other names do not count. -/
def ofJson? : Json → Option Request
  | .object fields =>
    ofParts? (Fields.get? "method" fields) (Fields.get? "url" fields)
      (Fields.get? "headers" fields) (Fields.get? "body" fields)
  | .array [m, u] => ofParts? (some m) (some u) none none
  | .array [m, u, h] => ofParts? (some m) (some u) (some h) none
  | .array [m, u, h, b] => ofParts? (some m) (some u) (some h) (some b)
  | _ => none

end Request

end ApiScript
