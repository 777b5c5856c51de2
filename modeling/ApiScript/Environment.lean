import ApiScript.Fault
import ApiScript.Reference
import ApiScript.Table

/-! # Variables

Variables keep the order in which they were first bound. The names of code points are reserved and
cannot be bound.
-/

namespace ApiScript

/-! ## Variables of a process -/

/-- Variables of a process by their names. Neither names nor values need be text. -/
abbrev ProcessVariables := List (ByteArray × ByteArray)

namespace ProcessVariables

def value? (process : ProcessVariables) (name : String) : Option ByteArray :=
  (process.find? fun v => v.1.data == name.toUTF8.data).map (·.2)

def text? (process : ProcessVariables) (name : String) : Option String :=
  (process.value? name).bind String.fromUTF8?

end ProcessVariables

/-! ## Environments -/

structure Environment where
  bindings : Table Json

namespace Environment

def empty : Environment := ⟨Table.empty⟩

instance : Inhabited Environment := ⟨empty⟩

def isReserved (name : String) : Bool := CodePoint.isName name.toList

def get? (env : Environment) (name : String) : Option Json := env.bindings.get? name

/-- Whether a variable is bound; one that is bound to null is. -/
def isBound (env : Environment) (name : String) : Bool := env.bindings.contains name

def bind (env : Environment) (name : String) (value : Json) : Except Fault Environment :=
  if isReserved name then .error (.reservedName name)
  else .ok ⟨env.bindings.insert name value⟩

def unbind (env : Environment) (name : String) : Environment := ⟨env.bindings.erase name⟩

def size (env : Environment) : Nat := env.bindings.size

def entries (env : Environment) : List (String × Json) := env.bindings.entries

/-- Whether two environments bind the same names to the same values, in whatever order. -/
def same (a b : Environment) : Bool :=
  a.size == b.size && a.entries.all fun e =>
    match b.get? e.1 with
    | none => false
    | some v => e.2.same v

/-- The variables of a process whose name and value are text, and whose name is not reserved. -/
def ofProcess (process : ProcessVariables) : Environment :=
  ⟨process.foldl (fun t entry =>
    match String.fromUTF8? entry.1, String.fromUTF8? entry.2 with
    | some name, some value => if isReserved name then t else t.insert name (.string value)
    | _, _ => t) Table.empty⟩

/-- The value of a name in a reference: the character of a reserved name, or the bound value. -/
def lookup (env : Environment) (name : List Char) : Option Json :=
  if CodePoint.isName name then
    (CodePoint.char? name).map fun c => .string (String.ofList [c])
  else env.get? (String.ofList name)

end Environment

end ApiScript
