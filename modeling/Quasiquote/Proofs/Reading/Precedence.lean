import Quasiquote.Proofs.Reading.Spelling

/-!
# Precedence

The documented ladder says which operators bind tighter than which. A tree written with just the
parentheses that the ladder asks for, and with a semicolon behind every statement, is read back as
that tree.

* `BinaryOp.ladder`: the ladder of the operators with two operands. Above them all are those with
  one operand, and above these the calls.
* `Program.terminals`: a tree with the parentheses that the ladder asks for.
* `Program.ofTokens_terminals`: reading it gives the tree back.
-/

namespace Quasiquote

/-- The operators with two operands; those on a later rung bind tighter, and those on one rung group
from the left. -/
def BinaryOp.ladder : List (List BinaryOp) :=
  [[.eq, .ne], [.lt, .le, .gt, .ge], [.add, .sub], [.mul, .div]]

def BinaryOp.rung (op : BinaryOp) : Nat := ladder.findIdx fun ops => op ∈ ops

theorem BinaryOp.strength_eq_rung (op : BinaryOp) : op.strength = op.rung + 1 := by
  cases op <;> rfl

def Expr.rung? : Expr → Option Nat
  | .binary _ op _ => some op.rung
  | _ => none

def Expr.isUnary : Expr → Bool
  | .unary _ _ => true
  | _ => false

/-- Terminals in parentheses, if the ladder asks for them. -/
def groupedIf : Bool → List Terminal → List Terminal
  | true, ts => .mark .leftParen :: (ts ++ [.mark .rightParen])
  | false, ts => ts

mutual

def Expr.terminals : Expr → List Terminal
  | .name id => [.name id]
  | .int n => [.integer n]
  | .bool true => [.keyword .trueWord]
  | .bool false => [.keyword .falseWord]
  | .unary op operand => .mark op.mark :: groupedIf operand.rung?.isSome operand.terminals
  | .binary left op right =>
    groupedIf (left.rung?.any fun rung => rung < op.rung) left.terminals ++ .mark op.mark ::
      groupedIf (right.rung?.any fun rung => rung ≤ op.rung) right.terminals
  | .cond test consequence alternative =>
    .keyword .ifWord :: .mark .leftParen :: (test.terminals ++
      .mark .rightParen :: .mark .leftBrace :: (statementsTerminals consequence ++
        .mark .rightBrace :: alternativeTerminals alternative))
  | .routine role params body =>
    .keyword role.keyword :: .mark .leftParen :: (nameTerminals params ++
      .mark .rightParen :: .mark .leftBrace :: (statementsTerminals body ++ [.mark .rightBrace]))
  | .call callee args =>
    groupedIf (callee.rung?.isSome || callee.isUnary) callee.terminals ++
      .mark .leftParen :: (argsTerminals args ++ [.mark .rightParen])

def Stmt.terminals : Stmt → List Terminal
  | .bind name value => .keyword .letWord :: .name name :: .mark .equal :: value.terminals
  | .ret value => .keyword .returnWord :: value.terminals
  | .expr value => value.terminals

def statementsTerminals : List Stmt → List Terminal
  | [] => []
  | s :: rest => s.terminals ++ .mark .semicolon :: statementsTerminals rest

/-- The terminals of an alternative; none at all if it is missing. -/
def alternativeTerminals : Option (List Stmt) → List Terminal
  | none => []
  | some block => .keyword .elseWord :: .mark .leftBrace ::
      (statementsTerminals block ++ [.mark .rightBrace])

def argsTerminals : List Expr → List Terminal
  | [] => []
  | [x] => x.terminals
  | x :: y :: rest => x.terminals ++ .mark .comma :: argsTerminals (y :: rest)

end

def Program.terminals (program : Program) : List Terminal := statementsTerminals program

/-- How tightly an expression holds together without parentheses around it. -/
def Expr.strength : Expr → Nat
  | .binary _ op _ => op.strength
  | .unary op _ => op.strength
  | _ => 6

theorem Expr.strength_of_rung? {e : Expr} {rung : Nat} (h : e.rung? = some rung) :
    e.strength = rung + 1 := by
  cases e with
  | binary left op right =>
    cases h
    exact op.strength_eq_rung
  | _ => cases h

theorem Expr.le_strength_of_rung? {e : Expr} (h : e.rung? = none) : 5 ≤ e.strength := by
  cases e with
  | binary => cases h
  | unary => exact Nat.le_refl 5
  | _ => exact Nat.le_succ 5

/-- Without parentheses, a left operand holds together at the strength of its operator. -/
theorem Expr.le_strength_left {e : Expr} {op : BinaryOp}
    (h : (e.rung?.any fun rung => rung < op.rung) = false) : op.strength ≤ e.strength := by
  have tight := op.strength_lt
  cases hr : e.rung? with
  | none =>
    have := e.le_strength_of_rung? hr
    omega
  | some rung =>
    have := e.strength_of_rung? hr
    have := op.strength_eq_rung
    simp only [hr, Option.any_some, decide_eq_false_iff_not] at h
    omega

/-- Without parentheses, a right operand holds together more tightly than its operator. -/
theorem Expr.lt_strength_right {e : Expr} {op : BinaryOp}
    (h : (e.rung?.any fun rung => rung ≤ op.rung) = false) : op.strength + 1 ≤ e.strength := by
  have tight := op.strength_lt
  cases hr : e.rung? with
  | none =>
    have := e.le_strength_of_rung? hr
    omega
  | some rung =>
    have := e.strength_of_rung? hr
    have := op.strength_eq_rung
    simp only [hr, Option.any_some, decide_eq_false_iff_not] at h
    omega

theorem Expr.le_strength_operand {e : Expr} (h : e.rung?.isSome = false) : 5 ≤ e.strength :=
  e.le_strength_of_rung? (Option.isSome_eq_false_iff.mp h |> Option.isNone_iff_eq_none.mp)

theorem Expr.le_strength_callee {e : Expr} (h : (e.rung?.isSome || e.isUnary) = false) :
    6 ≤ e.strength := by
  cases e with
  | binary => cases h
  | unary => cases h
  | _ => exact Nat.le_refl 6

theorem Spells.groupedIf {e : Expr} {j k : Nat} {ts : List Terminal} {b : Bool}
    (h : Spells (.operand j e) ts) (bound : k ≤ 6) (enough : b = false → k ≤ j) :
    Spells (.operand k e) (groupedIf b ts) := by
  cases b with
  | true => exact .looser (.group (.looser h (Nat.zero_le j))) bound
  | false => exact .looser h (enough rfl)

theorem Spells.argsTerminals {xs : List Expr}
    (h : xs ≠ [] → Spells (.args xs) (argsTerminals xs)) :
    Spells (.optionalArgs xs) (argsTerminals xs) := by
  cases xs with
  | nil => exact .noArgs
  | cons x rest => exact .someArgs (h (List.cons_ne_nil x rest))

mutual

theorem Expr.spells_terminals : (e : Expr) → Spells (.operand e.strength e) e.terminals
  | .name _ => .name
  | .int _ => .int
  | .bool true => .trueLit
  | .bool false => .falseLit
  | .unary op operand =>
    .unary op (operand.spells_terminals.groupedIf (Nat.le_succ 5) Expr.le_strength_operand)
  | .binary left op right => by
    have := op.strength_lt
    exact .binary
      (left.spells_terminals.groupedIf (by omega) Expr.le_strength_left)
      (right.spells_terminals.groupedIf (by omega) Expr.lt_strength_right)
  | .cond test consequence none =>
    .cond (.looser test.spells_terminals (Nat.zero_le _))
      (spells_statementsTerminals consequence)
  | .cond test consequence (some alternative) =>
    .condElse (.looser test.spells_terminals (Nat.zero_le _))
      (spells_statementsTerminals consequence) (spells_statementsTerminals alternative)
  | .routine _ params body =>
    .routine (derives_nameTerminals params) (spells_statementsTerminals body)
  | .call callee args =>
    .call (callee.spells_terminals.groupedIf (Nat.le_refl 6) Expr.le_strength_callee)
      (.argsTerminals (spells_argsTerminals args))

theorem Stmt.spells_terminals : (s : Stmt) → Spells (.statement s) s.terminals
  | .bind _ value => .binding (.looser value.spells_terminals (Nat.zero_le _))
  | .ret value => .ret (.looser value.spells_terminals (Nat.zero_le _))
  | .expr value => .bare (.looser value.spells_terminals (Nat.zero_le _))

theorem spells_statementsTerminals : (ss : List Stmt) →
    Spells (.statements ss) (statementsTerminals ss)
  | [] => .noStatement
  | s :: rest => .ended s.spells_terminals (spells_statementsTerminals rest)

theorem spells_argsTerminals : (xs : List Expr) → xs ≠ [] → Spells (.args xs) (argsTerminals xs)
  | [x], _ => .lastArg (.looser x.spells_terminals (Nat.zero_le _))
  | x :: y :: rest, _ =>
    .moreArgs (.looser x.spells_terminals (Nat.zero_le _))
      (spells_argsTerminals (y :: rest) (List.cons_ne_nil y rest))

end

/-- A program that is written with only the parentheses that the ladder asks for is read back. -/
theorem Program.ofTokens_terminals (p : Program) {tokens : List Token} {last : Token}
    (written : tokens.map Token.terminal = p.terminals) (ends : last.kind = .eof) :
    Program.ofTokens (tokens ++ [last]) = .ok p := by
  refine Spells.read ?_ ends
  rw [written]
  exact spells_statementsTerminals p

/-- The tokens of one minus the difference of two and minus three. -/
def difference : List Token :=
  [⟨.integer 1, "1", 1⟩, ⟨.mark .minus, "-", 1⟩, ⟨.mark .leftParen, "(", 1⟩,
    ⟨.integer 2, "2", 1⟩, ⟨.mark .minus, "-", 1⟩, ⟨.mark .minus, "-", 1⟩, ⟨.integer 3, "3", 1⟩,
    ⟨.mark .rightParen, ")", 1⟩, ⟨.mark .semicolon, ";", 1⟩]

theorem Program.ofTokens_terminals_difference :
    Program.ofTokens (difference ++ [⟨.eof, "", 1⟩]) =
      .ok [.expr (.binary (.int 1) .sub (.binary (.int 2) .sub (.unary .neg (.int 3))))] :=
  Program.ofTokens_terminals _ rfl rfl

end Quasiquote
