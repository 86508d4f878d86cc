import Quasiquote.Quotation
import Quasiquote.Value.Operation

/-!
# Evaluation

Expressions are evaluated in a frame, operands and arguments from the left, and the first signal
ends them. What a block gives is what its last statement gives; a binding gives nothing.

* A call opens a frame inside the one that the function closes over, and a `return` in its body
  ends there.
* A call of the bare name `quote` is no call: its argument is quoted.
* Each rule is written over an `Evaluator` of the expressions one level further in; `Expr.eval` ties
  the knot, up to a depth. A depth that suffices gives the same as any greater.
-/

namespace Quasiquote

section
variable (eval : Evaluator) (frame : Nat)

/-- Evaluates a statement; what it gives, if anything. -/
def Stmt.evalWith : Stmt → Signalling (Option Value)
  | .expr value => do
    let v ← eval frame value
    pure (some v)
  | .bind name value => do
    let v ← eval frame value
    Eval.insert frame name v
    pure none
  | .ret value => do
    let v ← eval frame value
    throw (.returned v)

/-- Evaluates statements in order; what the last of them gives, or what was given before if there
is none. -/
def Block.evalFrom (given : Option Value) : List Stmt → Signalling (Option Value)
  | [] => pure given
  | s :: rest => do
    let given ← s.evalWith eval frame
    Block.evalFrom given rest

/-- Evaluates a block; what its last statement gives, if anything. -/
def Block.evalWith (block : Block) : Signalling (Option Value) :=
  Block.evalFrom eval frame none block

/-- Evaluates a block to a value; null if it gives none. -/
def Block.valueWith (block : Block) : Signalling Value := do
  let given ← Block.evalWith eval frame block
  pure (given.getD .null)

/-- Evaluates expressions from the left. -/
def evalEach : List Expr → Signalling (List Value)
  | [] => pure []
  | x :: rest => do
    let v ← eval frame x
    let vs ← evalEach rest
    pure (v :: vs)

end

/-- The frame of a call, with the parameters bound to the arguments. -/
def Closure.callFrame (closure : Closure) (args : List Value) : Frame :=
  (Frame.mk [] (some closure.frame)).insertAll closure.params args

/-- Calls a value. Only functions can be called, and only with as many arguments as they have
parameters. -/
def Value.callWith (eval : Evaluator) (callee : Value) (args : List Value) : Signalling Value :=
  match callee with
  | .routine .function _ closure =>
    if closure.params.length = args.length then do
      let frame ← Eval.openFrame (closure.callFrame args)
      (Block.valueWith eval frame closure.body).catchReturn
    else throw (.fault (.arity closure.params.length args.length))
  | _ => throw (.fault (.notFunction callee.kind))

/-- Evaluates the call of the bare name `quote` with these arguments. -/
def quoteCall (eval : Evaluator) (frame : Nat) : List Expr → Signalling Value
  | [node] => node.quoteWith eval frame
  | args => throw (.fault (.quoteArity args.length))

/-- Evaluates an expression by evaluating its parts. -/
def Expr.evalWith (eval : Evaluator) (frame : Nat) : Expr → Signalling Value
  | .int n => pure (.int n)
  | .bool b => pure (.bool b)
  | .name id => do
    let found ← Eval.find? frame id
    (found.getD (.fault (.unbound id))).raise
  | .unary op operand => do
    let v ← eval frame operand
    (op.apply v).raise
  | .binary left op right => do
    let a ← eval frame left
    let b ← eval frame right
    (op.apply a b).raise
  | .cond test consequence alternative => do
    let v ← eval frame test
    if v.isTruthy then Block.valueWith eval frame consequence
    else
      match alternative with
      | some block => Block.valueWith eval frame block
      | none => pure .null
  | .routine .function params body => do
    let serial ← Eval.newSerial
    pure (.routine .function serial ⟨params, body, frame⟩)
  | .routine .transformer _ _ => throw (.fault .strayMacro)
  | .call callee args =>
    if callee.name? = some "quote" then quoteCall eval frame args
    else do
      let f ← eval frame callee
      let vs ← evalEach eval frame args
      f.callWith eval vs

/-- Evaluates an expression, with levels of evaluation inside each other up to a depth. -/
def Expr.eval : (depth : Nat) → Evaluator
  | 0 => fun _ _ => Eval.exhausted
  | depth + 1 => fun frame e => e.evalWith (Expr.eval depth) frame

def Expr.quote (depth frame : Nat) (node : Expr) : Signalling Value :=
  node.quoteWith (Expr.eval depth) frame

def Stmt.eval (depth frame : Nat) (s : Stmt) : Signalling (Option Value) :=
  s.evalWith (Expr.eval depth) frame

def Block.eval (depth frame : Nat) (block : Block) : Signalling (Option Value) :=
  Block.evalWith (Expr.eval depth) frame block

def Value.call (depth : Nat) (callee : Value) (args : List Value) : Signalling Value :=
  callee.callWith (Expr.eval depth) args

/-- Evaluates a program; what it gives, if anything. A `return` at the top ends the program with its
value. -/
def Program.eval (depth frame : Nat) (program : Program) : Eval (Option Value) := do
  let given ← (Block.eval depth frame program).settled?
  pure (given.map Value.unwrapped)

end Quasiquote
