import ApiScript.Cel.Basic

/-! # Reading expressions

Each level of binding strength has a reader of its own, given one for whole expressions. What stands
inside brackets, and after the colon of a condition, is a whole expression again; whole expressions
nest only so deep.
-/

namespace ApiScript

namespace Cel

namespace Parser

/-- Reads something from the start of some tokens, and gives what follows it. -/
abbrev Reader (α : Type) := List Token → Option (α × List Token)

def expect? (text : String) : List Token → Option (List Token)
  | .sign s :: rest => if s = text then some rest else none
  | _ => none

/-- Reads the operators and operands that follow a first operand; of several operators the first
binds the strongest. The first argument limits their number. -/
def chain (operand : Reader Expr) (op? : String → Option BinaryOp) : Nat → Expr → Reader Expr
  | 0, e, ts => some (e, ts)
  | limit + 1, e, ts =>
    match ts with
    | .sign s :: rest =>
      match op? s with
      | none => some (e, ts)
      | some op => (operand rest).bind fun r => chain operand op? limit (.binary op e r.1) r.2
    | _ => some (e, ts)

def joined (operand : Reader Expr) (op? : String → Option BinaryOp) : Reader Expr := fun ts =>
  (operand ts).bind fun r => chain operand op? r.2.length r.1 r.2

/-- What follows a first part: the same again after each comma, if a part follows it. The first
argument limits the number of parts. -/
def moreParts {α : Type} (part : Reader α) : Nat → List α → Reader (List α)
  | 0, done, ts => some (done.reverse, ts)
  | limit + 1, done, ts =>
    match expect? "," ts with
    | none => some (done.reverse, ts)
    | some rest =>
      match part rest with
      | none => some (done.reverse, ts)
      | some (x, rest) => moreParts part limit (x :: done) rest

def parts {α : Type} (part : Reader α) : Reader (List α) := fun ts =>
  match part ts with
  | none => some ([], ts)
  | some (x, rest) => moreParts part rest.length [x] rest

def closedParts {α : Type} (part : Reader α) (close : String) : Reader (List α) := fun ts =>
  (parts part ts).bind fun r =>
    (expect? close ((expect? "," r.2).getD r.2)).map fun rest => (r.1, rest)

def arguments (expression : Reader Expr) : Reader (List Expr) := fun ts =>
  (parts expression ts).bind fun r => (expect? ")" r.2).map fun rest => (r.1, rest)

def entry (expression : Reader Expr) : Reader (Expr × Expr) := fun ts => do
  let (key, rest) ← expression ts
  let (value, rest) ← expression (← expect? ":" rest)
  return ((key, value), rest)

def whole? (negative : Bool) (text : List Char) : Option Expr :=
  match text with
  | '0' :: 'x' :: digits =>
    if negative then none else (signedOf? 16 64 digits).map fun n => .literal (.int n)
  | digits =>
    (signedOf? 10 64 (if negative then '-' :: digits else digits)).map fun n => .literal (.int n)

def decimal? (negative : Bool) (text : List Char) : Option Expr :=
  (floatOf? (if negative then '-' :: text else text)).map fun x =>
    .literal (.double (Binary64.ofFloat x))

def presence? : List Expr → Option Expr
  | [.select e field] => some (.has e field)
  | _ => none

def call? (name : String) (args : List Expr) : Option Expr :=
  if name = "has" ∧ args.length = 1 then presence? args else some (.call name args)

def quantifier? : String → Option Quantifier
  | "all" => some .all
  | "exists" => some .exists
  | "exists_one" => some .existsOne
  | "existsOne" => some .existsOne
  | _ => none

/-- A call of a method: some go through the items of their receiver, each under the name that is
the first argument. -/
def method? (receiver : Expr) (name : String) (args : List Expr) : Option Expr :=
  match quantifier? name, args with
  | some q, [item, condition] =>
    match item with
    | .variable x => some (.quantified q receiver x condition)
    | _ => none
  | _, _ =>
    match name, args with
    | "map", [.variable x, result] =>
      some (.collected receiver x (.literal (.bool true)) result)
    | "map", [.variable x, condition, result] => some (.collected receiver x condition result)
    | "filter", [.variable x, condition] => some (.collected receiver x condition (.variable x))
    | "map", [_, _] => none
    | "map", [_, _, _] => none
    | "filter", [_, _] => none
    | _, _ => some (.method receiver name args)

def primary (expression : Reader Expr) : Reader Expr
  | .literal l :: rest => some (.literal l, rest)
  | .whole text :: rest => (whole? false text).map fun e => (e, rest)
  | .decimal text :: rest => (decimal? false text).map fun e => (e, rest)
  | .sign "-" :: .whole text :: rest => (whole? true text).map fun e => (e, rest)
  | .sign "-" :: .decimal text :: rest => (decimal? true text).map fun e => (e, rest)
  | .name x :: .sign "(" :: rest =>
    (arguments expression rest).bind fun r => (call? x r.1).map fun e => (e, r.2)
  | .name x :: rest => some (.variable x, rest)
  | .sign "." :: .name x :: .sign "(" :: rest =>
    (arguments expression rest).map fun r => (.call ("." ++ x) r.1, r.2)
  | .sign "." :: .name x :: rest => some (.variable ("." ++ x), rest)
  | .sign "(" :: rest =>
    (expression rest).bind fun r => (expect? ")" r.2).map fun after => (r.1, after)
  | .sign "[" :: rest => (closedParts expression "]" rest).map fun r => (.list r.1, r.2)
  | .sign "\x7b" :: rest =>
    (closedParts (entry expression) "\x7d" rest).map fun r => (.map r.1, r.2)
  | _ => none

def members (expression : Reader Expr) : Nat → Expr → Reader Expr
  | 0, e, ts => some (e, ts)
  | limit + 1, e, ts =>
    match ts with
    | .sign "." :: .name x :: .sign "(" :: rest =>
      (arguments expression rest).bind fun r =>
        (method? e x r.1).bind fun e => members expression limit e r.2
    | .sign "." :: .name x :: rest => members expression limit (.select e x) rest
    | .sign "[" :: rest =>
      (expression rest).bind fun r =>
        (expect? "]" r.2).bind fun after =>
          members expression limit (.binary .index e r.1) after
    | _ => some (e, ts)

def member (expression : Reader Expr) : Reader Expr := fun ts =>
  (primary expression ts).bind fun r => members expression r.2.length r.1 r.2

def dropSigns (text : String) : List Token → List Token
  | .sign s :: rest => if s = text then dropSigns text rest else .sign s :: rest
  | ts => ts

/-- A run of the same sign acts once; a single minus sign before a number is part of it. -/
def unary (expression : Reader Expr) : Reader Expr := fun ts =>
  match ts with
  | .sign "!" :: rest =>
    (member expression (dropSigns "!" rest)).map fun r => (.unary .not r.1, r.2)
  | .sign "-" :: .whole _ :: _ => member expression ts
  | .sign "-" :: .decimal _ :: _ => member expression ts
  | .sign "-" :: rest =>
    (member expression (dropSigns "-" rest)).map fun r => (.unary .negate r.1, r.2)
  | _ => member expression ts

def productOp? : String → Option BinaryOp
  | "*" => some .multiply
  | "/" => some .divide
  | "%" => some .remainder
  | _ => none

def sumOp? : String → Option BinaryOp
  | "+" => some .add
  | "-" => some .subtract
  | _ => none

def relationOp? : String → Option BinaryOp
  | "==" => some .equal
  | "!=" => some .notEqual
  | "<" => some .less
  | "<=" => some .lessEqual
  | ">" => some .greater
  | ">=" => some .greaterEqual
  | "in" => some .isIn
  | _ => none

def andOp? : String → Option BinaryOp
  | "&&" => some .and
  | _ => none

def orOp? : String → Option BinaryOp
  | "||" => some .or
  | _ => none

def disjunction (expression : Reader Expr) : Reader Expr :=
  joined (joined (joined (joined (joined (unary expression) productOp?) sumOp?) relationOp?)
    andOp?) orOp?

/-- An expression that may be a condition with two results, of which only the second may be one
again. -/
def conditional (expression : Reader Expr) : Reader Expr := fun ts => do
  let (condition, rest) ← disjunction expression ts
  match expect? "?" rest with
  | none => some (condition, rest)
  | some rest =>
    let (yes, rest) ← disjunction expression rest
    let (no, rest) ← expression (← expect? ":" rest)
    return (.conditional condition yes no, rest)

def expression : Nat → Reader Expr
  | 0 => fun _ => none
  | depth + 1 => conditional (expression depth)

end Parser

def greatestDepth : Nat := 96

def Expr.ofText? (text : String) : Option Expr := do
  match ← Parser.expression greatestDepth (← Token.all? text) with
  | (e, []) => some e
  | _ => none

end Cel

end ApiScript
