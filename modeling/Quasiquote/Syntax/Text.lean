import Quasiquote.Syntax

/-!
# The text of a tree

The text reads like source. Every operation is in parentheses of its own, so that the tree can be
seen; `let` and `return` end in a semicolon and a bare expression does not; statements follow each
other with nothing between them.
-/

namespace Quasiquote

def UnaryOp.text : UnaryOp → String
  | .not => "!"
  | .neg => "-"

def BinaryOp.text : BinaryOp → String
  | .add => "+"
  | .sub => "-"
  | .mul => "*"
  | .div => "/"
  | .lt => "<"
  | .le => "<="
  | .gt => ">"
  | .ge => ">="
  | .eq => "=="
  | .ne => "!="

/-- The word that opens a routine's literal. -/
def Role.text : Role → String
  | .function => "fn"
  | .transformer => "macro"

/-- An integer in decimal digits, after a minus sign if it is negative. -/
def integerText (n : Int64) : String := toString n.toInt

def booleanText : Bool → String
  | true => "true"
  | false => "false"

/-- Texts with a comma and a blank between them. -/
def commaText : List String → String
  | [] => ""
  | [x] => x
  | x :: y :: rest => x ++ ", " ++ commaText (y :: rest)

mutual

def Expr.text : Expr → String
  | .name id => id
  | .int n => integerText n
  | .bool b => booleanText b
  | .unary op operand => "(" ++ op.text ++ operand.text ++ ")"
  | .binary left op right => "(" ++ left.text ++ " " ++ op.text ++ " " ++ right.text ++ ")"
  | .cond test consequence alternative =>
    "if (" ++ test.text ++ ") \x7b " ++ statementsText consequence ++ " \x7d"
      ++ alternativeText alternative
  | .routine role params body =>
    role.text ++ "(" ++ commaText params ++ ") \x7b " ++ statementsText body ++ " \x7d"
  | .call callee args => callee.text ++ "(" ++ argsText args ++ ")"

def Stmt.text : Stmt → String
  | .bind name value => "let " ++ name ++ " = " ++ value.text ++ ";"
  | .ret value => "return " ++ value.text ++ ";"
  | .expr value => value.text

/-- The texts of statements, with nothing between them. -/
def statementsText : List Stmt → String
  | [] => ""
  | s :: rest => s.text ++ statementsText rest

/-- The text of an alternative; nothing at all if it is missing. -/
def alternativeText : Option (List Stmt) → String
  | none => ""
  | some block => " else \x7b " ++ statementsText block ++ " \x7d"

def argsText : List Expr → String
  | [] => ""
  | [x] => x.text
  | x :: y :: rest => x.text ++ ", " ++ argsText (y :: rest)

end

def Program.text (program : Program) : String := statementsText program

end Quasiquote
