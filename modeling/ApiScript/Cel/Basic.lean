import ApiScript.Cel.Token

/-! # Expressions -/

namespace ApiScript

namespace Cel

inductive UnaryOp where
  | not
  | negate

inductive BinaryOp where
  | or
  | and
  | equal
  | notEqual
  | less
  | lessEqual
  | greater
  | greaterEqual
  | isIn
  | add
  | subtract
  | multiply
  | divide
  | remainder
  | index

/-- What is asked about the items of a list. -/
inductive Quantifier where
  | all
  | exists
  | existsOne

inductive Expr where
  | literal (l : Literal)
  | variable (name : String)
  | select (e : Expr) (field : String)
  | has (e : Expr) (field : String)
  | call (function : String) (args : List Expr)
  | method (receiver : Expr) (function : String) (args : List Expr)
  | list (items : List Expr)
  | map (entries : List (Expr × Expr))
  | unary (op : UnaryOp) (e : Expr)
  | binary (op : BinaryOp) (a b : Expr)
  | conditional (condition yes no : Expr)
  | quantified (q : Quantifier) (range : Expr) (item : String) (condition : Expr)
  | collected (range : Expr) (item : String) (condition result : Expr)
  deriving Inhabited

end Cel

end ApiScript
