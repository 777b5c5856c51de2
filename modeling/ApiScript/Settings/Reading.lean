import ApiScript.Settings.Basic
import ApiScript.Table
import ApiScript.Yaml.Reading

/-! # Settings from text

Settings are written in JSON or YAML, as an object with up to three fields or as a list of their
values. A field may not come twice; one that is missing has its standard value.
-/

namespace ApiScript

namespace Settings

/-- What is asked of a value of a format. -/
structure Format (α : Type) where
  fields? : α → Option (List (String × α))
  items? : α → Option (List α)
  text? : α → Option String
  number? : α → Option Nat
  bindings? : α → Option (List (String × Json))

structure Parts (α : Type) where
  language : Option α
  timeout : Option α
  bindings : Option α

variable {α : Type}

/-- Puts the value of a field with a name among the parts, unless it is there. -/
def addPart? (p : Parts α) (name : String) (v : α) : Option (Parts α) :=
  match name, p with
  | "script_language", ⟨none, t, b⟩ => some ⟨some v, t, b⟩
  | "script_language", _ => none
  | "timeout", ⟨l, none, b⟩ => some ⟨l, some v, b⟩
  | "timeout", _ => none
  | "bindings", ⟨l, t, none⟩ => some ⟨l, t, some v⟩
  | "bindings", _ => none
  | _, p => some p

def listedParts? : List α → Option (Parts α)
  | [] => some ⟨none, none, none⟩
  | [l] => some ⟨some l, none, none⟩
  | [l, t] => some ⟨some l, some t, none⟩
  | [l, t, b] => some ⟨some l, some t, some b⟩
  | _ => none

def parts? (f : Format α) (v : α) : Option (Parts α) :=
  match f.fields? v, f.items? v with
  | some fields, _ => fields.foldlM (fun p e => addPart? p e.1 e.2) ⟨none, none, none⟩
  | none, some items => listedParts? items
  | none, none => none

def orStandard {β : Type} (read? : α → Option β) (value : β) : Option α → Option β
  | none => some value
  | some v => read? v

def ofParts? (f : Format α) (p : Parts α) : Option Settings :=
  match orStandard f.text? standard.language p.language,
    orStandard f.number? standard.timeout p.timeout, orStandard f.bindings? [] p.bindings with
  | some language, some timeout, some bindings =>
    some ⟨language, timeout, (Table.ofList bindings).entries⟩
  | _, _, _ => none

def jsonFormat : Format Json where
  fields? := fun
    | .object fields => some fields
    | _ => none
  items? := fun
    | .array items => some items
    | _ => none
  text? := fun
    | .string s => some s
    | _ => none
  number? := fun
    | .number (.int n) => if 0 ≤ n then some n.toNat else none
    | _ => none
  bindings? := fun
    | .object fields => some (fields.map fun e => (e.1, e.2.normalise))
    | _ => none

/-- The entries of a mapping; a plain scalar that is empty or null counts as an empty one. -/
def yamlEntries? : Yaml.Node → Option (List (Yaml.Node × Yaml.Node))
  | .mapping _ entries => some entries
  | .scalar _ plain text =>
    if plain && (text.isEmpty || Yaml.isNull text.toList) then some [] else none
  | _ => none

def yamlFields? {β : Type} (read? : Yaml.Node → Option β) (n : Yaml.Node) :
    Option (List (String × β)) :=
  (yamlEntries? n).bind fun entries => entries.mapM fun e =>
    match e.1.name?, read? e.2 with
    | some name, some v => some (name, v)
    | _, _ => none

def yamlFormat : Format Yaml.Node where
  fields? := yamlFields? some
  items? := fun
    | .sequence _ items => some items
    | _ => none
  text? := Yaml.Node.name?
  number? := fun
    | .scalar _ true text =>
      match Yaml.whole text.toList with
      | .value (.number (.int n)) => if 0 ≤ n then some n.toNat else none
      | _ => none
    | _ => none
  bindings? := yamlFields? Yaml.Node.toJson?

def ofJsonText? (text : String) : Option Settings :=
  (Json.parseWritten? text).bind fun v => (parts? jsonFormat v).bind (ofParts? jsonFormat)

def ofYamlText? (text : String) : Option Settings :=
  (Yaml.Node.ofText? Yaml.greatestDepth text).bind fun n =>
    (parts? yamlFormat n).bind (ofParts? yamlFormat)

end Settings

end ApiScript
