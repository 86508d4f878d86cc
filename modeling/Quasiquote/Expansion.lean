import Quasiquote.Evaluation

/-!
# Macros

A macro is defined by a binding at the top of a program whose value is a macro literal. Before the
program runs, its definitions are taken out and bound in a frame, and then every call of a name that
the frame sees as a macro gives its place to the syntax that the macro's body quotes.

* Arguments are handed over as quotations and are not evaluated.
* Syntax that a macro gives is expanded in turn, up to a depth.
* A macro that gives no syntax is a `MacroError`, which ends the expansion.
-/

namespace Quasiquote

/-- Why a macro call has no expansion. -/
inductive MacroError
  | arity (name : String) (want got : Nat)
  | noQuotation (name : String) (given : Value)
  | noValue (name : String)
  deriving DecidableEq

def MacroError.message : MacroError → String
  | .arity name want got =>
    "macro " ++ name ++ " takes " ++ toString want ++ " argument(s), got " ++ toString got
  | .noQuotation name given =>
    "macro " ++ name ++ " returned " ++ given.kind.label ++ " (" ++ given.text
      ++ "); macros must return quoted syntax"
  | .noValue name => "macro " ++ name ++ " produced no value; macros must return quoted syntax"

/-- Whether a statement, at the top of a program, defines a macro. -/
def Stmt.isMacroBinding : Stmt → Bool
  | .bind _ (.routine .transformer _ _) => true
  | _ => false

/-- The statements that define no macro, in order. -/
def Program.withoutMacros (program : Program) : Program :=
  program.filter fun s => !s.isMacroBinding

/-- Binds the macro that a statement defines, if it defines one. -/
def Store.bindMacro (frame : Nat) (store : Store) : Stmt → Store
  | .bind name (.routine .transformer params body) =>
    { store with serials := store.serials + 1 }.insert frame name
      (.routine .transformer store.serials ⟨params, body, frame⟩)
  | _ => store

def Store.bindMacros (store : Store) (frame : Nat) (program : Program) : Store :=
  program.foldl (Store.bindMacro frame) store

/-- A call of a macro: the name that it is called by, the macro, and the arguments. -/
structure MacroCall where
  name : String
  closure : Closure
  args : List Expr

/-- An expression as a call of a macro, if a frame sees its callee's name as one. -/
def Store.macroCall? (store : Store) (frame : Nat) : Expr → Option MacroCall
  | .call (.name name) args =>
    match store.find? frame name with
    | some (.routine .transformer _ closure) => some ⟨name, closure, args⟩
    | _ => none
  | _ => none

/-- Arguments as quotations, each made anew. -/
def quoteArgs : List Expr → Eval (List Value)
  | [] => pure []
  | x :: rest => do
    let serial ← Eval.newSerial
    let values ← quoteArgs rest
    pure (.quotation serial x :: values)

/-- Evaluates the body of a macro in a frame of its own; what it gives, if anything. -/
def MacroCall.eval (depth : Nat) (call : MacroCall) : Eval (Option Value) := do
  let values ← quoteArgs call.args
  let frame ← Eval.openFrame (call.closure.callFrame values)
  (Block.eval depth frame call.closure.body).settled?

/-- The syntax in what a macro's body gives, by a `return` or not. -/
def MacroCall.syntaxOf (call : MacroCall) : Option Value → Except MacroError Expr
  | none => .error (.noValue call.name)
  | some given =>
    match given.unwrapped with
    | .quotation _ node => .ok node
    | other => .error (.noQuotation call.name other)

/-- Expands an expression whose parts are expanded, if it calls a macro, and what comes of it. -/
def expandNode (frame : Nat) : (depth : Nat) → Expr → ExceptT MacroError Eval Expr
  | 0, _ => Eval.exhausted
  | depth + 1, e => do
    match (← get).macroCall? frame e with
    | none => pure e
    | some call =>
      if call.closure.params.length = call.args.length then do
        let given ← call.eval depth
        let node ← ExceptT.mk (pure (call.syntaxOf given))
        node.rewriteM (expandNode frame depth)
      else throw (.arity call.name call.closure.params.length call.args.length)

/-- Expands every macro call in a program. -/
def Program.expand (depth frame : Nat) (program : Program) : ExceptT MacroError Eval Program :=
  program.rewriteM (expandNode frame depth)

end Quasiquote
