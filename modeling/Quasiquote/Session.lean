import Quasiquote.Expansion
import Quasiquote.Syntax.Reading

/-!
# Sessions

A session is a store that one source after another runs in. A source is read, its macros are defined
in the global frame, its macro calls are expanded, and only then is it evaluated. A `Rejection` is a
source that does not get that far; what it defined before stays defined.
-/

namespace Quasiquote

/-- Why a source is not evaluated. -/
inductive Rejection
  | lexical (error : LexicalError)
  | grammatical (error : SyntaxError)
  | expansion (error : MacroError)
  deriving DecidableEq

def lineMessage (line : Nat) (text : String) : String :=
  "[line " ++ toString line ++ "] Error: " ++ text

def LexicalError.message (e : LexicalError) : String :=
  lineMessage e.line ("Integer literal out of range: " ++ e.digits)

def Rejection.message : Rejection → String
  | .lexical e => e.message
  | .grammatical e => lineMessage e.line e.complaint.message
  | .expansion e => "Macro error: " ++ e.message

/-- The program in a source. Errors in its tokens, wherever they are, come before all others. -/
def Program.ofSource (source : String) : Except Rejection Program :=
  match Token.ofText source with
  | .error e => .error (.lexical e)
  | .ok tokens => (Program.ofTokens tokens).mapError .grammatical

namespace Session

def globals : Nat := 0

/-- Defines the macros of a program in a frame and expands what is left of it. -/
def prepare (depth frame : Nat) (program : Program) : ExceptT MacroError Eval Program := do
  modify fun s => s.bindMacros frame program
  program.withoutMacros.expand depth frame

/-- Runs a source in the global frame; what its program gives, if anything. -/
def run (depth : Nat) (source : String) : ExceptT Rejection Eval (Option Value) := do
  let program ← ExceptT.mk (pure (Program.ofSource source))
  let expanded ← (prepare depth globals program).adapt .expansion
  expanded.eval depth globals

/-- A depth beyond what any memory holds, for runs outside of proofs. -/
def ample : Nat := 1000000000000

end Session

end Quasiquote
