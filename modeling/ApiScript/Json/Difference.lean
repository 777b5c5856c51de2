import ApiScript.Json.Printer

/-! # The first difference between two values

Objects are visited by the expected fields in order, and after them by the fields that are there
without being expected; lists of equal length are visited by position.
-/

namespace ApiScript

namespace Json

def unexpected? (expected : List (String × Json)) : List (String × Json) → Option String
  | [] => none
  | (n, _) :: rest =>
    if Fields.contains n expected then unexpected? expected rest else some n

mutual

def differenceAt (path : String) : Json → Json → Option String
  | .object want, .object got =>
    match differenceInFields path want got with
    | some difference => some difference
    | none => (unexpected? want got).map fun n => s!"{path}.{n} is unexpected"
  | .array want, .array got =>
    if want.length ≠ got.length then
      some s!"{path} has {got.length} element(s), expected {want.length}"
    else differenceInItems path 0 want got
  | expected, actual =>
    if same expected actual then none
    else some s!"{path}: expected {expected.render}, got {actual.render}"

def differenceInFields (path : String) : List (String × Json) → List (String × Json) →
    Option String
  | [], _ => none
  | (n, want) :: rest, got =>
    match Fields.get? n got with
    | none => some s!"{path}.{n} is missing"
    | some g =>
      match differenceAt s!"{path}.{n}" want g with
      | some difference => some difference
      | none => differenceInFields path rest got

def differenceInItems (path : String) (position : Nat) : List Json → List Json → Option String
  | want :: wants, got :: gots =>
    match differenceAt s!"{path}[{position}]" want got with
    | some difference => some difference
    | none => differenceInItems path (position + 1) wants gots
  | _, _ => none

end

/-- What differs first between an expected and an actual value; `none` when they are the same. -/
def difference (expected actual : Json) : Option String := differenceAt "$" expected actual

end Json

end ApiScript
