import ApiScript.Json.Basic

/-! # Scripts

A script performs at most one request. It has a name, the templates it inherits from, and
directives that say what to do.

A script takes from a template the directives that it lacks. The entries of env and headers are
merged, the script's own winning; the lists of preconditions, bind and assert are joined, the
template's items first.
-/

namespace ApiScript

structure Script where
  name : Option String
  templates : List String
  directives : Fields Json

namespace Script

def label (s : Script) : String := s.name.getD "<anonymous>"

/-- A script whose name ends so defines a template. -/
def templateEnding : String := ".template"

def isTemplateName (name : String) : Bool :=
  templateEnding.toList.isSuffixOf name.toList

def isTemplate (s : Script) : Bool := s.name.any isTemplateName

def directive? (s : Script) (name : String) : Option Json := Fields.get? name s.directives

/-- The items of a list-valued directive: a single item is a list of one, an absent or null one is
empty. -/
def items : Option Json → List Json
  | none => []
  | some .null => []
  | some (.array xs) => xs
  | some x => [x]

def list (s : Script) (name : String) : List Json := items (s.directive? name)

/-! ## Inheriting directives -/

def mergedObjects : List String := ["env", "headers"]

def joinedLists : List String := ["preconditions", "bind", "assert"]

/-- A script's own value of a directive after the inherited one has been merged into it. -/
def mergeDirective (name : String) (own inherited : Json) : Json :=
  if name ∈ mergedObjects then
    match own, inherited with
    | .object own, .object inherited => .object (Fields.insertAll own inherited)
    | _, _ => own
  else if name ∈ joinedLists then .array (items (some inherited) ++ items (some own))
  else own

def inheritDirective (directives : Fields Json) (entry : String × Json) : Fields Json :=
  match Fields.get? entry.1 directives with
  | none => Fields.insert entry.1 entry.2 directives
  | some own => Fields.insert entry.1 (mergeDirective entry.1 own entry.2) directives

/-- Fills the gaps of a script from a template. -/
def inherit (s template : Script) : Script :=
  { s with directives := template.directives.foldl inheritDirective s.directives }

end Script

end ApiScript
