import Quasiquote.Value

/-!
# Operations on values

Integer arithmetic is exact or a fault: the result is computed over all integers, and
`exactOr` keeps it only if it is in the 64-bit range. Division rounds toward zero.
-/

namespace Quasiquote

/-- An exact result as a value, or the fault of one that is out of range. -/
def exactOr (overflow : Fault) (n : Int) : Value :=
  if Int64.minValue.toInt ≤ n ∧ n ≤ Int64.maxValue.toInt then .int (Int64.ofInt n)
  else .fault overflow

def UnaryOp.apply : UnaryOp → Value → Value
  | .not, v => .bool (!v.isTruthy)
  | .neg, .int n => exactOr (.negationOverflow n) (-n.toInt)
  | .neg, v => .fault (.noNegation v.kind)

def BinaryOp.applyInt (op : BinaryOp) (a b : Int64) : Value :=
  match op with
  | .add => exactOr (.overflow a op b) (a.toInt + b.toInt)
  | .sub => exactOr (.overflow a op b) (a.toInt - b.toInt)
  | .mul => exactOr (.overflow a op b) (a.toInt * b.toInt)
  | .div =>
    if b = 0 then .fault (.divisionByZero a)
    else exactOr (.overflow a op b) (a.toInt.tdiv b.toInt)
  | .lt => .bool (decide (a.toInt < b.toInt))
  | .le => .bool (decide (a.toInt ≤ b.toInt))
  | .gt => .bool (decide (b.toInt < a.toInt))
  | .ge => .bool (decide (b.toInt ≤ a.toInt))
  | .eq => .bool (decide (a = b))
  | .ne => .bool (decide (a ≠ b))

/-- A two-operand operator on values that are no signals. Other kinds than integers can only be
compared for identity, and only within one kind. -/
def BinaryOp.apply (op : BinaryOp) (left right : Value) : Value :=
  match left, right with
  | .int a, .int b => op.applyInt a b
  | _, _ =>
    if left.kind ≠ right.kind then .fault (.mismatch left.kind op right.kind)
    else
      match op with
      | .eq => .bool (left.identical right)
      | .ne => .bool (!left.identical right)
      | _ => .fault (.noOperation left.kind op right.kind)

end Quasiquote
