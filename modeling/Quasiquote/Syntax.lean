/-!
# The syntax tree

Programs are lists of statements, and so are the blocks inside them.

* An expression is a name, a literal, an operation, a condition, a routine (a function or a
  macro, told apart by its `Role`) or a call.
* Integer literals are 64-bit words; `Int64` keeps that range in the type.
* `Expr.calledName?` is how `quote`, `unquote` and macro calls are recognised: by the bare name in
  callee position, never by a value.
-/

namespace Quasiquote

inductive UnaryOp
  | not
  | neg
  deriving DecidableEq, Repr

inductive BinaryOp
  | add
  | sub
  | mul
  | div
  | lt
  | le
  | gt
  | ge
  | eq
  | ne
  deriving DecidableEq, Repr

/-- What a parameter list and a body are for: a `function` runs on values, a `transformer` (a macro)
runs on syntax before the program does. -/
inductive Role
  | function
  | transformer
  deriving DecidableEq, Repr

mutual

inductive Expr
  | name (id : String)
  | int (n : Int64)
  | bool (b : Bool)
  | unary (op : UnaryOp) (operand : Expr)
  | binary (left : Expr) (op : BinaryOp) (right : Expr)
  /-- A missing alternative differs from an empty one. -/
  | cond (test : Expr) (consequence : List Stmt) (alternative : Option (List Stmt))
  | routine (role : Role) (params : List String) (body : List Stmt)
  | call (callee : Expr) (args : List Expr)

inductive Stmt
  | bind (name : String) (value : Expr)
  | ret (value : Expr)
  | expr (value : Expr)

end

/-- The statements between braces. -/
abbrev Block := List Stmt

/-- The statements of one source, in order. -/
abbrev Program := List Stmt

/-- The name that an expression consists of, if it is a bare name. -/
def Expr.name? : Expr → Option String
  | .name id => some id
  | _ => none

/-- The bare name that a call has as its callee. -/
def Expr.calledName? : Expr → Option String
  | .call callee _ => callee.name?
  | _ => none

def Stmt.value : Stmt → Expr
  | .bind _ value => value
  | .ret value => value
  | .expr value => value

end Quasiquote
