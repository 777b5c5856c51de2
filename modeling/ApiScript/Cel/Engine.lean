import ApiScript.Cel.Evaluation
import ApiScript.Cel.Parser
import ApiScript.Environment

/-! # The expression engine

Two functions have second names, which are put right in the text before it is read. The variables of
an environment are the names of an expression.
-/

namespace ApiScript

namespace Cel

/-- Replaces a text wherever it stands and no word reaches into it. The first argument counts the
characters that belong to a text already replaced. -/
def replaceAtWord (old new : List Char) : Nat → Bool → List Char → List Char
  | _, _, [] => []
  | skipped + 1, _, c :: cs => replaceAtWord old new skipped (isWordChar c) cs
  | 0, inWord, c :: cs =>
    if !inWord && old.isPrefixOf (c :: cs) then
      new ++ replaceAtWord old new (old.length - 1) (isWordChar c) cs
    else c :: replaceAtWord old new 0 (isWordChar c) cs

def aliases : List (String × String) := [("len(", "size("), ("type(", "type_of(")]

def withoutAliases (text : String) : String :=
  String.ofList (aliases.foldl (fun cs a => replaceAtWord a.1.toList a.2.toList 0 false cs)
    text.toList)

/-- Whether a name can be written in an expression. -/
def isIdentifier (name : String) : Bool :=
  match name.toList with
  | [] => false
  | c :: cs => Lexer.isNameStart c && cs.all Lexer.isNameChar

/-- The values of the names in an expression: the variables whose names can be written in one. -/
def scopeOf (env : Environment) : Scope := fun name =>
  if isIdentifier name then (env.get? name).map Value.ofJson else none

def evaluate (text : String) (env : Environment) : Except Trouble Json :=
  let text := withoutAliases text
  match Expr.ofText? text with
  | none => .error (Trouble.ofText s!"CEL compile error for '{text}'")
  | some e =>
    match eval? (scopeOf env) e with
    | none => .error (Trouble.ofText "CEL execution error")
    | some v =>
      match v.toJson? with
      | none => .error (Trouble.ofText "Failed to convert CEL value to JSON")
      | some json => .ok json

end Cel

end ApiScript
