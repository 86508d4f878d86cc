import Quasiquote.Syntax.Text

/-!
# Faults of a running program

A fault is a value that ends the program, so it carries its cause and not a text. `Kind` names the
kinds of values that the causes speak of, and `Fault.message` has the wording.
-/

namespace Quasiquote

inductive Kind
  | integer
  | boolean
  | null
  | returned
  | fault
  | function
  | transformer
  | quotation
  deriving DecidableEq, Repr

def Kind.label : Kind → String
  | .integer => "INTEGER"
  | .boolean => "BOOLEAN"
  | .null => "NULL"
  | .returned => "RETURN_VALUE"
  | .fault => "ERROR"
  | .function => "FUNCTION"
  | .transformer => "MACRO"
  | .quotation => "QUOTE"

def Role.kind : Role → Kind
  | .function => .function
  | .transformer => .transformer

/-- Why a program cannot go on. -/
inductive Fault
  | unbound (name : String)
  | noNegation (operand : Kind)
  | noOperation (left : Kind) (op : BinaryOp) (right : Kind)
  | mismatch (left : Kind) (op : BinaryOp) (right : Kind)
  | divisionByZero (dividend : Int64)
  | negationOverflow (operand : Int64)
  | overflow (left : Int64) (op : BinaryOp) (right : Int64)
  | notFunction (callee : Kind)
  | arity (want got : Nat)
  | quoteArity (got : Nat)
  | noSyntax (unquoted : Kind)
  /-- A macro literal anywhere but as the value of a top-level binding. -/
  | strayMacro
  deriving DecidableEq, Repr

def Fault.message : Fault → String
  | .unbound name => "identifier not found: " ++ name
  | .noNegation operand => "unknown operator: -" ++ operand.label
  | .noOperation left op right =>
    "unknown operator: " ++ left.label ++ " " ++ op.text ++ " " ++ right.label
  | .mismatch left op right =>
    "type mismatch: " ++ left.label ++ " " ++ op.text ++ " " ++ right.label
  | .divisionByZero dividend => "division by zero: " ++ integerText dividend ++ " / 0"
  | .negationOverflow operand => "integer overflow: -(" ++ integerText operand ++ ")"
  | .overflow left op right =>
    "integer overflow: " ++ integerText left ++ " " ++ op.text ++ " " ++ integerText right
  | .notFunction callee => "not a function: " ++ callee.label
  | .arity want got =>
    "wrong number of arguments: want=" ++ toString want ++ ", got=" ++ toString got
  | .quoteArity got => "wrong number of arguments to quote: want=1, got=" ++ toString got
  | .noSyntax unquoted => "cannot unquote " ++ unquoted.label ++ " into syntax"
  | .strayMacro => "macro literal outside of a top-level let binding"

end Quasiquote
