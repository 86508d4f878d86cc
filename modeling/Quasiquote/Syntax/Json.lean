import Quasiquote.Syntax
import Quasiquote.Json

/-!
# The JSON form of a tree

A node is an object with one member, whose key is the kind of the node. What has several parts is an
object with a member for each part, in the order in which they stand in the source; a block is an
object with its statements, and a missing alternative is null.
-/

namespace Quasiquote

def UnaryOp.tag : UnaryOp → String
  | .not => "Bang"
  | .neg => "Minus"

def BinaryOp.tag : BinaryOp → String
  | .add => "Plus"
  | .sub => "Minus"
  | .mul => "Star"
  | .div => "Slash"
  | .lt => "Less"
  | .le => "LessEqual"
  | .gt => "Greater"
  | .ge => "GreaterEqual"
  | .eq => "Equal"
  | .ne => "NotEqual"

def Role.tag : Role → String
  | .function => "FunctionLiteral"
  | .transformer => "MacroLiteral"

mutual

def Expr.json : Expr → Json
  | .name id => .tagged "Identifier" (.string id)
  | .int n => .tagged "IntegerLiteral" (.int n.toInt)
  | .bool b => .tagged "BooleanLiteral" (.bool b)
  | .unary op operand =>
    .tagged "Prefix" (.object [("operator", .string op.tag), ("right", operand.json)])
  | .binary left op right =>
    .tagged "Infix"
      (.object [("left", left.json), ("operator", .string op.tag), ("right", right.json)])
  | .cond test consequence alternative =>
    .tagged "If"
      (.object [("condition", test.json),
        ("consequence", .object [("statements", .array (statementsJson consequence))]),
        ("alternative", alternativeJson alternative)])
  | .routine role params body =>
    .tagged role.tag
      (.object [("parameters", .array (params.map .string)),
        ("body", .object [("statements", .array (statementsJson body))])])
  | .call callee args =>
    .tagged "Call" (.object [("function", callee.json), ("arguments", .array (argsJson args))])

def Stmt.json : Stmt → Json
  | .bind name value => .tagged "Let" (.object [("name", .string name), ("value", value.json)])
  | .ret value => .tagged "Return" value.json
  | .expr value => .tagged "Expression" value.json

def statementsJson : List Stmt → List Json
  | [] => []
  | s :: rest => s.json :: statementsJson rest

def alternativeJson : Option (List Stmt) → Json
  | none => .null
  | some block => .object [("statements", .array (statementsJson block))]

def argsJson : List Expr → List Json
  | [] => []
  | x :: rest => x.json :: argsJson rest

end

def Program.json (program : Program) : Json :=
  .object [("statements", .array (statementsJson program))]

end Quasiquote
