import ApiScript.Fault
import ApiScript.Json.Printer

/-! # Scripts from documents -/

namespace ApiScript

namespace Script

def templateNames (label : String) : List Json → Except Fault (List String)
  | [] => .ok []
  | .string name :: rest =>
    match templateNames label rest with
    | .ok names => .ok (name :: names)
    | .error f => .error f
  | other :: _ =>
    .error (.invalidScript label s!"template name must be a string, got {other.render}")

def nameOf (fields : Fields Json) : Except Fault (Option String) :=
  match Fields.get? "name" fields with
  | none => .ok none
  | some .null => .ok none
  | some (.string name) => .ok (some name)
  | some other => .error (.invalidScript other.render "\"name\" must be a string")

def templatesOf (label : String) (fields : Fields Json) : Except Fault (List String) :=
  match Fields.get? "template" fields with
  | none => .ok []
  | some .null => .ok []
  | some (.string template) => .ok [template]
  | some (.array items) => templateNames label items
  | some other =>
    .error (.invalidScript label s!"\"template\" must be a string or list, got {other.render}")

def ofFields (fields : Fields Json) : Except Fault Script := do
  let name ← nameOf fields
  let rest := Fields.erase "name" fields
  let templates ← templatesOf (name.getD "<anonymous>") rest
  return { name, templates, directives := Fields.erase "template" rest }

def ofJson : Json → Except Fault Script
  | .object fields => ofFields fields
  | other => .error (.invalidScript other.render "a script must be a JSON object")

/-- Searches the methods in order for the one that a script names, after `found`. -/
def requestAmong (s : Script) (found : Option (Method × String)) :
    List Method → Except Fault (Option (Method × String))
  | [] => .ok found
  | m :: rest =>
    match s.directive? m.text with
    | none => requestAmong s found rest
    | some value =>
      if found.isSome then
        .error (.invalidScript s.label "a script may contain only one request method")
      else match value with
        | .string url => requestAmong s (some (m, url)) rest
        | other =>
          .error (.invalidScript s.label s!"{m.text} URL must be a string, got {other.render}")

/-- The method and the URL of the request that a script asks for, if it asks for one. -/
def request (s : Script) : Except Fault (Option (Method × String)) := requestAmong s none Method.all

end Script

end ApiScript
