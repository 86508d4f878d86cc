import Quasiquote.Syntax.Text

/-!
# Syntax errors

What a program lacks at the first token that cannot go on with it, and the line of that token.
-/

namespace Quasiquote

inductive Complaint
  /-- An expression; the token found in its place, unless it is the end. -/
  | noExpression (found : Option String)
  | noBindingName
  | noBindingSign
  | unclosedBlock
  | unclosedGroup
  | unclosedArgs
  | noCondition
  | unclosedCondition
  | noConsequence
  | noAlternative
  | noParams (role : Role)
  | noParamName
  | unclosedParams
  | noBody (role : Role)
  deriving DecidableEq, Repr

def Complaint.message : Complaint → String
  | .noExpression (some lexeme) => "Expected expression, found '" ++ lexeme ++ "'"
  | .noExpression none => "Expected expression, found end of input"
  | .noBindingName => "Expected name after 'let'"
  | .noBindingSign => "Expected '=' after let binding name"
  | .unclosedBlock => "Expected '\x7d' after block"
  | .unclosedGroup => "Expected ')' after expression"
  | .unclosedArgs => "Expected ')' after arguments"
  | .noCondition => "Expected '(' after 'if'"
  | .unclosedCondition => "Expected ')' after condition"
  | .noConsequence => "Expected '\x7b' before if body"
  | .noAlternative => "Expected '\x7b' after 'else'"
  | .noParams role => "Expected '(' after '" ++ role.text ++ "'"
  | .noParamName => "Expected parameter name"
  | .unclosedParams => "Expected ')' after parameters"
  | .noBody role => "Expected '\x7b' before " ++ role.text ++ " body"

/-- A complaint and the line of the token that it is about. -/
structure SyntaxError where
  line : Nat
  complaint : Complaint
  deriving DecidableEq, Repr

end Quasiquote
