import ApiScript.Json.Printer
import ApiScript.Script.Basic
import ApiScript.Variables

/-! # Plug-ins

A plug-in gives a directive its meaning: an assertion judges a call, an extractor takes values from
it, a generator makes the body of a request, and an engine evaluates the expressions of a language.
-/

namespace ApiScript

structure CallContext where
  script : Script
  request : Option Request
  response : Option Response

def CallContext.requireResponse (c : CallContext) (who : String) : Except Trouble Response :=
  match c.response with
  | some r => .ok r
  | none =>
    .error
      (Trouble.ofText s!"{who} requires a response but script {c.script.label} made no request")

inductive Verdict where
  | pass
  | fail (message : String)

def Verdict.ofFindings (findings : List String) : Verdict :=
  if findings.isEmpty then .pass else .fail ("; ".intercalate findings)

structure RequestBody where
  content : String
  contentType : Option String

abbrev Assertion := Json → CallContext → Environment → Except Trouble Verdict

abbrev Extractor := Json → CallContext → Binding Unit

abbrev Generator := Json → Environment → Except Trouble RequestBody

abbrev Engine := String → Environment → Except Trouble Json

/-- The texts in a list, or `none` with the first value that is no text. -/
def textItems : List Json → Except Json (List String)
  | [] => .ok []
  | .string s :: rest =>
    match textItems rest with
    | .ok texts => .ok (s :: texts)
    | .error v => .error v
  | v :: _ => .error v

def textsOf (what : String) : Json → Except Trouble (List String)
  | .string s => .ok [s]
  | .array items =>
    match textItems items with
    | .ok texts => .ok texts
    | .error v => .error (Trouble.ofText s!"{what} entries must be strings, got {v.render}")
  | other =>
    .error (Trouble.ofText s!"{what} expects a string or list of strings, got {other.render}")

def fieldsOf (what : String) : Json → Except Trouble (Fields Json)
  | .object fields => .ok fields
  | other => .error (Trouble.ofText s!"{what} expects an object, got {other.render}")

end ApiScript
