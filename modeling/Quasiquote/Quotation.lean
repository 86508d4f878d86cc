import Quasiquote.Computation
import Quasiquote.Syntax.Rewrite

/-!
# Quotation

`quote(node)` makes its argument a value instead of evaluating it. Inside the node, every call of
`unquote` with one argument is evaluated at once and gives its place to the syntax of the value:
a literal, or the syntax that the value quotes. The calls are met from the leaves up, so one inside
another comes first, whatever stands between them.

Evaluation is a parameter here, since it needs quotation in turn.
-/

namespace Quasiquote

/-- How an expression is evaluated in a frame. -/
abbrev Evaluator := Nat → Expr → Signalling Value

/-- The syntax that an unquoted value gives its place to. A fault goes on as it is; any other value
without a syntax is a fault of its own. -/
def Value.spliced (v : Value) : Signalling Expr :=
  match v.syntax? with
  | some node => pure node
  | none => throw (if v.isFault then v else .fault (.noSyntax v.kind))

/-- Replaces a call of `unquote` with one argument, and keeps everything else. -/
def splice (eval : Evaluator) (frame : Nat) (e : Expr) : Signalling Expr :=
  match e with
  | .call callee [arg] =>
    if callee.name? = some "unquote" then do
      let v ← (eval frame arg).settled
      v.spliced
    else pure e
  | _ => pure e

/-- Quotes a node, with what is unquoted in it evaluated in a frame. -/
def Expr.quoteWith (eval : Evaluator) (frame : Nat) (node : Expr) : Signalling Value := do
  let node ← node.rewriteM (splice eval frame)
  let serial ← Eval.newSerial
  pure (.quotation serial node)

end Quasiquote
