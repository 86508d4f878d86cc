import Quasiquote.Fault
import Quasiquote.Syntax.Equality

/-!
# Values

Besides integers, booleans and null, a value is a routine with the frame it closes over, a piece of
quoted syntax, or a signal: a value on its way out of a `return`, or a fault. Signals travel as
values do, and only what they pass through tells them apart.

Routines and quotations carry a serial number, given out when they are made. `Value.identical`
compares serial numbers and never contents.
-/

namespace Quasiquote

/-- A routine's parameters and body, and the frame in which its literal was evaluated. -/
structure Closure where
  params : List String
  body : Block
  frame : Nat
  deriving DecidableEq

/-- Values and signals. -/
inductive Value
  | int (n : Int64)
  | bool (b : Bool)
  | null
  | routine (role : Role) (serial : Nat) (closure : Closure)
  | quotation (serial : Nat) (node : Expr)
  /-- A value on its way out of the innermost call. -/
  | returned (inner : Value)
  | fault (cause : Fault)
  deriving DecidableEq

namespace Value

def kind : Value → Kind
  | .int _ => .integer
  | .bool _ => .boolean
  | .null => .null
  | .routine role _ _ => role.kind
  | .quotation _ _ => .quotation
  | .returned _ => .returned
  | .fault _ => .fault

/-- The text of a value. A routine shows its literal, and a value on its way out shows itself. -/
def text : Value → String
  | .int n => integerText n
  | .bool b => booleanText b
  | .null => "null"
  | .routine role _ closure => (Expr.routine role closure.params closure.body).text
  | .quotation _ node => "QUOTE(" ++ node.text ++ ")"
  | .returned inner => inner.text
  | .fault cause => "ERROR: " ++ cause.message

/-- Signals are passed outward; they are never bound and never operated on. -/
def isSignal : Value → Bool
  | .returned _ => true
  | .fault _ => true
  | _ => false

def isFault : Value → Bool
  | .fault _ => true
  | _ => false

/-- What counts as true: everything but null and false, so zero too. -/
def isTruthy : Value → Bool
  | .null => false
  | .bool b => b
  | _ => true

/-- Whether two values are one and the same. Booleans and nulls of one content are; routines and
quotations are if they were made at once; integers are compared elsewhere, and signals never are. -/
def identical : Value → Value → Bool
  | .bool a, .bool b => a == b
  | .null, .null => true
  | .routine r i _, .routine s j _ => r == s && i == j
  | .quotation i _, .quotation j _ => i == j
  | _, _ => false

/-- What a value on its way out of a call is outside of that call. -/
def unwrapped : Value → Value
  | .returned inner => inner
  | v => v

/-- The syntax that stands for a value, if any does: a literal, or the syntax that was quoted. -/
def syntax? : Value → Option Expr
  | .int n => some (.int n)
  | .bool b => some (.bool b)
  | .quotation _ node => some node
  | _ => none

end Value

end Quasiquote
