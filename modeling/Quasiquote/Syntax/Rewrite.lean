import Quasiquote.Syntax

/-!
# Rewriting a tree from the leaves up

`Expr.rewriteM` offers every expression of a tree to a rule, once and in order: the parts of an
expression before the expression itself, and the parts in the order in which they stand in the
source. What the rule gives takes the expression's place and is not visited again, so the rule
always sees parts that were already rewritten. Statements keep their shape. The rule may have
effects and may fail, which ends the whole rewrite.
-/

namespace Quasiquote

section
variable {m : Type → Type} [Monad m] (rule : Expr → m Expr)

mutual

/-- Rewrites the parts of an expression and then the expression. -/
def Expr.rewriteM : Expr → m Expr
  | .name id => rule (.name id)
  | .int n => rule (.int n)
  | .bool b => rule (.bool b)
  | .unary op operand => do
    let operand ← operand.rewriteM
    rule (.unary op operand)
  | .binary left op right => do
    let left ← left.rewriteM
    let right ← right.rewriteM
    rule (.binary left op right)
  | .cond test consequence alternative => do
    let test ← test.rewriteM
    let consequence ← rewriteBlockM consequence
    let alternative ← rewriteAlternativeM alternative
    rule (.cond test consequence alternative)
  | .routine role params body => do
    let body ← rewriteBlockM body
    rule (.routine role params body)
  | .call callee args => do
    let callee ← callee.rewriteM
    let args ← rewriteArgsM args
    rule (.call callee args)

def Stmt.rewriteM : Stmt → m Stmt
  | .bind name value => do
    let value ← value.rewriteM
    pure (.bind name value)
  | .ret value => do
    let value ← value.rewriteM
    pure (.ret value)
  | .expr value => do
    let value ← value.rewriteM
    pure (.expr value)

def rewriteBlockM : List Stmt → m (List Stmt)
  | [] => pure []
  | s :: rest => do
    let s ← s.rewriteM
    let rest ← rewriteBlockM rest
    pure (s :: rest)

def rewriteAlternativeM : Option (List Stmt) → m (Option (List Stmt))
  | none => pure none
  | some block => do
    let block ← rewriteBlockM block
    pure (some block)

def rewriteArgsM : List Expr → m (List Expr)
  | [] => pure []
  | x :: rest => do
    let x ← x.rewriteM
    let rest ← rewriteArgsM rest
    pure (x :: rest)

end

def Program.rewriteM (program : Program) : m Program := rewriteBlockM rule program

end

end Quasiquote
