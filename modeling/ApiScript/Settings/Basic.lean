import ApiScript.Environment
import ApiScript.Fault
import ApiScript.Json.Parser
import ApiScript.Text.Basic

/-! # Settings -/

namespace ApiScript

structure Settings where
  language : String
  /-- How many seconds a request may take. -/
  timeout : Nat
  bindings : List (String × Json)

namespace Settings

def standard : Settings := ⟨"cel", 30, []⟩

def languageVariable : String := "RAVEL_SCRIPT_LANGUAGE"

def timeoutVariable : String := "RAVEL_TIMEOUT"

def seconds? (text : String) : Option Nat := unsignedOf? 10 64 text.toList

def ofProcess (process : ProcessVariables) : Except Trouble Settings :=
  let s := { standard with
    language := (process.text? languageVariable).getD standard.language }
  match process.text? timeoutVariable with
  | none => .ok s
  | some text =>
    match seconds? text with
    | some n => .ok { s with timeout := n }
    | none => .error (Trouble.ofText s!"Invalid {timeoutVariable} value: {text}")

def splitAtEquals (cs : List Char) : Option (List Char × List Char) :=
  match cs.dropWhile (· ≠ '=') with
  | _ :: value => some (cs.takeWhile (· ≠ '='), value)
  | [] => none

/-- A name and a value with an equals sign between them. A value that is not JSON is a text. -/
def binding (text : String) : Except Trouble (String × Json) :=
  match splitAtEquals text.toList with
  | none => .error (Trouble.ofText s!"Binding must have the form NAME=VALUE: {text}")
  | some (name, value) =>
    let name := trimBlanks name
    let value := String.ofList value
    if name.isEmpty then .error (Trouble.ofText s!"Binding name is empty: {text}")
    else .ok (String.ofList name, (Json.parse? value).getD (.string value))

end Settings

end ApiScript
