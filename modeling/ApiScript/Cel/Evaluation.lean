import ApiScript.Cel.Function

/-! # Evaluating expressions

The value of an expression under the values of its names. A part that is not needed is not
evaluated; anything without a value takes away the value of the whole.
-/

namespace ApiScript

namespace Cel

abbrev Scope := String → Option Value

def Scope.bind (scope : Scope) (name : String) (v : Value) : Scope :=
  fun n => if n = name then some v else scope n

def asBool? : Value → Option Bool
  | .bool b => some b
  | _ => none

def itemsOf? : Value → Option (List Value)
  | .list items => some items
  | .map entries => some (entries.map fun e =>
      match e.1 with
      | .bool b => .bool b
      | .int n => .int n
      | .uint n => .uint n
      | .string s => .string s)
  | _ => none

def forAll? (condition : Value → Option Value) : Value → List Value → Option Value
  | so, [] => some so
  | .bool false, _ => some (.bool false)
  | _, v :: rest =>
    match condition v with
    | some (.bool b) => forAll? condition (.bool b) rest
    | _ => none

/-- Goes on to the next item while all have been false. The result for the last item is not looked
at. -/
def forSome? (condition : Value → Option Value) : Value → List Value → Option Value
  | so, [] => some so
  | .bool true, _ => some (.bool true)
  | .bool false, v :: rest =>
    match condition v with
    | some so => forSome? condition so rest
    | none => none
  | _, _ => none

def collect? (condition result : Value → Option Value) : List Value → Option (List Value)
  | [] => some []
  | v :: rest =>
    match (condition v).bind asBool? with
    | none => none
    | some false => collect? condition result rest
    | some true =>
      match result v with
      | none => none
      | some r => (collect? condition result rest).map (r :: ·)

def Quantifier.act? (q : Quantifier) (condition : Value → Option Value) (items : List Value) :
    Option Value :=
  match q with
  | .all => forAll? condition (.bool true) items
  | .exists => forSome? condition (.bool false) items
  | .existsOne => (collect? condition some items).map fun found => .bool (found.length == 1)

/-- Whether a name before a point belongs to the name of the function after it. -/
def qualified? (receiver : Expr) (function : String) : Option String :=
  match receiver with
  | .variable p =>
    let name := p ++ "." ++ function
    if (Function.operands? name).isSome then some name else none
  | _ => none

def Operands.needed (o : Operands) (hasReceiver : Bool) (given : Nat) : Nat :=
  match o with
  | .withReceiver count => if hasReceiver then count - 1 else count
  | .ofArguments count => count
  | .allArguments => given

def applyTo? (name : String) (operands : Operands) (receiver : Option Value)
    (args : List Value) : Option Value :=
  match operands, receiver with
  | .withReceiver _, some v => Function.result? name (v :: args)
  | _, _ => Function.result? name args

mutual

def eval? (scope : Scope) : Expr → Option Value
  | .literal l => some (Value.ofLiteral l)
  | .variable x => scope x
  | .select e field => (eval? scope e).bind (Value.field? field)
  | .has e field => (eval? scope e).map fun v => .bool (v.hasField field)
  | .call f args =>
    match Function.operands? f with
    | none => none
    | some o =>
      (evalFirst? scope (o.needed false args.length) args).bind (applyTo? f o none)
  | .method receiver f args =>
    match qualified? receiver f with
    | some name =>
      match Function.operands? name with
      | none => none
      | some o =>
        (evalFirst? scope (o.needed false args.length) args).bind (applyTo? name o none)
    | none =>
      match Function.operands? f, eval? scope receiver with
      | some o, some v =>
        (evalFirst? scope (o.needed true args.length) args).bind (applyTo? f o (some v))
      | _, _ => none
  | .list items => (evalFirst? scope items.length items).map .list
  | .map entries => (evalEntries? scope [] entries).map .map
  | .unary op e => (eval? scope e).bind op.act?
  | .binary op a b =>
    match op, (eval? scope a) with
    | .or, some (.bool true) => some (.bool true)
    | .or, some (.bool false) => eval? scope b
    | .or, _ => none
    | .and, some (.bool false) => some (.bool false)
    | .and, some (.bool true) => (eval? scope b).bind fun v => (asBool? v).map .bool
    | .and, _ => none
    | op, some v => (eval? scope b).bind (op.act? v)
    | _, none => none
  | .conditional c yes no =>
    match eval? scope c with
    | some (.bool true) => eval? scope yes
    | some (.bool false) => eval? scope no
    | _ => none
  | .quantified q range x condition =>
    match (eval? scope range).bind itemsOf? with
    | none => none
    | some items => q.act? (fun v => eval? (scope.bind x v) condition) items
  | .collected range x condition result =>
    match (eval? scope range).bind itemsOf? with
    | none => none
    | some items =>
      (collect? (fun v => eval? (scope.bind x v) condition)
        (fun v => eval? (scope.bind x v) result) items).map .list

def evalFirst? (scope : Scope) (count : Nat) : List Expr → Option (List Value)
  | [] => if count = 0 then some [] else none
  | e :: rest =>
    if count = 0 then some []
    else
      match eval? scope e with
      | none => none
      | some v => (evalFirst? scope (count - 1) rest).map (v :: ·)

/-- The entries of a map; of those under one key the last stays. -/
def evalEntries? (scope : Scope) (done : List (Key × Value)) :
    List (Expr × Expr) → Option (List (Key × Value))
  | [] => some done
  | (k, e) :: rest =>
    match (eval? scope k).bind Value.key?, eval? scope e with
    | some k, some v => evalEntries? scope (putKey k v done) rest
    | _, _ => none

end

end Cel

end ApiScript
