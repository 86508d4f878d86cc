import Quasiquote.Proofs.Evaluation.Outcome
import Quasiquote.Proofs.Syntax.Parts

/-!
# Arithmetic is exact or fails

* `Expr.exactValue?`: the value of an arithmetic expression over all integers, which is missing
  where something is divided by zero.
* `Expr.isRepresentable`: that value exists and is in the range of a word. `Expr.Fails`: how an
  operation on exact operands is not representable, and the wording of the fault.
* `Expr.postorder`: the operations and literals in the order in which they are evaluated.
* `arithmetic_exact`: an arithmetic expression comes to its exact value, or to the fault of the
  first of its operations that is not representable. The store plays no part in it.
-/

namespace Quasiquote

def inWord (n : Int) : Bool := Int64.minValue.toInt ≤ n && n ≤ Int64.maxValue.toInt

def BinaryOp.isArithmetic : BinaryOp → Bool
  | .add | .sub | .mul | .div => true
  | _ => false

/-- What an operator computes over all integers. Division rounds toward zero, and nothing is divided
by zero. -/
def BinaryOp.exactValue? (op : BinaryOp) (a b : Int) : Option Int :=
  match op with
  | .add => some (a + b)
  | .sub => some (a - b)
  | .mul => some (a * b)
  | .div => if b = 0 then none else some (a.tdiv b)
  | _ => none

/-- The value of an expression over all integers, if all of it is arithmetic and nothing in it is
divided by zero. -/
def Expr.exactValue? : Expr → Option Int
  | .int n => some n.toInt
  | .unary .neg operand => do
    let a ← operand.exactValue?
    some (-a)
  | .binary left op right => do
    let a ← left.exactValue?
    let b ← right.exactValue?
    op.exactValue? a b
  | _ => none

def Test.arithmetic : Test :=
  .ofExprs fun
    | .int _ => true
    | .unary op _ => op = .neg
    | .binary _ op _ => op.isArithmetic
    | _ => false

/-- An arithmetic expression and all expressions inside, operands before their operation and from
the left. -/
def Expr.postorder : Expr → List Expr
  | .unary op operand => operand.postorder ++ [.unary op operand]
  | .binary left op right => left.postorder ++ right.postorder ++ [.binary left op right]
  | e => [e]

/-- An expression that has an exact value, in the range of a word. -/
def Expr.isRepresentable (e : Expr) : Bool := e.exactValue?.any inWord

/-- How an operator fails on exact operands, and what is said of it. -/
inductive BinaryOp.Fails : BinaryOp → Int → Int → String → Prop
  | zero {a} : Fails .div a 0 ("division by zero: " ++ toString a ++ " / 0")
  | large {op a b n} (computed : BinaryOp.exactValue? op a b = some n) (out : inWord n = false) :
      Fails op a b ("integer overflow: " ++ toString a ++ " " ++ op.text ++ " " ++ toString b)

/-- How an operation fails on operands with exact values, and what is said of it. -/
inductive Expr.Fails : Expr → String → Prop
  | negation {operand a} (value : Expr.exactValue? operand = some a) (out : inWord (-a) = false) :
      Fails (.unary .neg operand) ("integer overflow: -(" ++ toString a ++ ")")
  | operation {left op right a b message} (first : Expr.exactValue? left = some a)
      (second : Expr.exactValue? right = some b) (why : BinaryOp.Fails op a b message) :
      Fails (.binary left op right) message

/-- The first expression in that order that is not representable. -/
def Expr.firstFailing? (e : Expr) : Option Expr :=
  e.postorder.find? fun node => !node.isRepresentable

open Eval

/-! ## One operation -/

theorem inWord_iff {n : Int} :
    inWord n ↔ Int64.minValue.toInt ≤ n ∧ n ≤ Int64.maxValue.toInt := by
  simp only [inWord, Bool.and_eq_true, decide_eq_true_eq]

theorem inWord_toInt (n : Int64) : inWord n.toInt :=
  inWord_iff.mpr ⟨n.minValue_le_toInt, n.toInt_le⟩

theorem exactOr_of_inWord {n : Int} (overflow : Fault) (within : inWord n) :
    ∃ v : Int64, v.toInt = n ∧ exactOr overflow n = .int v := by
  have range := inWord_iff.mp within
  have low : -2 ^ 63 ≤ n := by
    rw [← Int64.toInt_minValue]
    exact range.1
  have high : n < 2 ^ 63 := by
    have most := range.2
    rw [Int64.toInt_maxValue] at most
    omega
  exact ⟨Int64.ofInt n, Int64.toInt_ofInt_of_le low high, if_pos range⟩

theorem exactOr_of_out {n : Int} (overflow : Fault) (out : inWord n = false) :
    exactOr overflow n = .fault overflow := by
  apply if_neg
  intro range
  rw [inWord_iff.mpr range] at out
  cases out

theorem BinaryOp.exactValue?_eq_none {op : BinaryOp} (arithmetic : op.isArithmetic) {a b : Int}
    (h : op.exactValue? a b = none) : op = .div ∧ b = 0 := by
  cases op with
  | div =>
    by_cases zero : b = 0
    · exact ⟨rfl, zero⟩
    · simp only [BinaryOp.exactValue?, if_neg zero] at h
      cases h
  | add | sub | mul => cases h
  | lt | le | gt | ge | eq | ne => cases arithmetic

/-- Where there is an exact value, it is what is kept if it is in range. -/
theorem BinaryOp.applyInt_eq {op : BinaryOp} {a b : Int64} {n : Int}
    (h : op.exactValue? a.toInt b.toInt = some n) :
    op.applyInt a b = exactOr (.overflow a op b) n := by
  cases op with
  | div =>
    by_cases zero : b.toInt = 0
    · simp only [BinaryOp.exactValue?, if_pos zero] at h
      cases h
    · simp only [BinaryOp.exactValue?, if_neg zero, Option.some.injEq] at h
      have apart : b ≠ 0 := by
        intro same
        apply zero
        rw [same, Int64.toInt_zero]
      rw [BinaryOp.applyInt, if_neg apart, h]
  | add | sub | mul =>
    obtain rfl := Option.some.inj h
    rfl
  | lt | le | gt | ge | eq | ne => cases h

theorem BinaryOp.applyInt_exact {op : BinaryOp} {a b : Int64}
    (h : (op.exactValue? a.toInt b.toInt).any inWord) :
    ∃ v : Int64, op.exactValue? a.toInt b.toInt = some v.toInt ∧ op.applyInt a b = .int v := by
  obtain ⟨n, computed, within⟩ := (Option.any_eq_true _ _).mp h
  obtain ⟨v, rfl, kept⟩ := exactOr_of_inWord (.overflow a op b) within
  exact ⟨v, computed, (BinaryOp.applyInt_eq computed).trans kept⟩

theorem BinaryOp.applyInt_fails {op : BinaryOp} (arithmetic : op.isArithmetic) {a b : Int64}
    (h : (op.exactValue? a.toInt b.toInt).any inWord = false) :
    ∃ cause : Fault, op.applyInt a b = .fault cause ∧ op.Fails a.toInt b.toInt cause.message := by
  cases computed : op.exactValue? a.toInt b.toInt with
  | none =>
    obtain ⟨rfl, zero⟩ := BinaryOp.exactValue?_eq_none arithmetic computed
    have same : b = 0 := Int64.toInt_inj.mp (zero.trans Int64.toInt_zero.symm)
    refine ⟨.divisionByZero a, if_pos same, ?_⟩
    rw [zero]
    exact .zero
  | some n =>
    rw [computed] at h
    have out : inWord n = false := h
    refine ⟨.overflow a op b, ?_, .large computed out⟩
    rw [BinaryOp.applyInt_eq computed, exactOr_of_out _ out]

/-! ## A whole expression -/

/-- How an expression comes out, up to a depth, if this is the first in it that fails. -/
def Expr.ComesOut (frame : Nat) (s : Store) (depth : Nat) (e : Expr) : Option Expr → Prop
  | none => ∃ v : Int64, e.exactValue? = some v.toInt ∧
      Expr.eval depth frame e s = some (.ok (.int v), s)
  | some node => ∃ cause : Fault, node.Fails cause.message ∧
      Expr.eval depth frame e s = some (.error (.fault cause), s)

def Expr.itselfFailing? (e : Expr) : Option Expr := if e.isRepresentable then none else some e

theorem Expr.find?_itself (e : Expr) :
    [e].find? (fun node => !node.isRepresentable) = e.itselfFailing? := by
  unfold Expr.itselfFailing?
  by_cases fits : e.isRepresentable
  · rw [if_pos fits, List.find?_cons_of_neg (by rw [fits]; decide), List.find?_nil]
  · rw [if_neg fits, List.find?_cons_of_pos]
    rw [Bool.eq_false_iff.mpr fits]
    rfl

theorem Expr.firstFailing?_unary (op : UnaryOp) (operand : Expr) :
    (Expr.unary op operand).firstFailing? =
      operand.firstFailing?.or (Expr.unary op operand).itselfFailing? := by
  simp only [Expr.firstFailing?, Expr.postorder, List.find?_append, Expr.find?_itself]

theorem Expr.firstFailing?_binary (left : Expr) (op : BinaryOp) (right : Expr) :
    (Expr.binary left op right).firstFailing? =
      (left.firstFailing?.or right.firstFailing?).or
        (Expr.binary left op right).itselfFailing? := by
  simp only [Expr.firstFailing?, Expr.postorder, List.find?_append, Expr.find?_itself]

section
variable {frame depth : Nat} {s : Store}

/-- A negation, once its operand is evaluated. -/
theorem Expr.comesOut_negation {operand : Expr} {a : Int64}
    (value : operand.exactValue? = some a.toInt)
    (run : Expr.eval depth frame operand s = some (.ok (.int a), s)) :
    (Expr.unary .neg operand).ComesOut frame s (depth + 1)
      (Expr.unary .neg operand).itselfFailing? := by
  have computed : (Expr.unary .neg operand).exactValue? = some (-a.toInt) := by
    rw [Expr.exactValue?, value]
    rfl
  have step : Expr.eval (depth + 1) frame (.unary .neg operand) s =
      (exactOr (.negationOverflow a) (-a.toInt)).raise s := andThen_of_ok run
  unfold Expr.itselfFailing?
  by_cases fits : (Expr.unary .neg operand).isRepresentable
  · rw [if_pos fits]
    rw [Expr.isRepresentable, computed] at fits
    obtain ⟨v, same, kept⟩ := exactOr_of_inWord (.negationOverflow a) fits
    refine ⟨v, by rw [computed, same], ?_⟩
    rw [step, kept]
    rfl
  · rw [if_neg fits]
    rw [Expr.isRepresentable, computed] at fits
    have out : inWord (-a.toInt) = false := Bool.eq_false_iff.mpr fits
    refine ⟨.negationOverflow a, .negation value out, ?_⟩
    rw [step, exactOr_of_out _ out]
    rfl

/-- An arithmetic operation, once its operands are evaluated. -/
theorem Expr.comesOut_operation {left right : Expr} {op : BinaryOp} {a b : Int64}
    (arithmetic : op.isArithmetic) (first : left.exactValue? = some a.toInt)
    (second : right.exactValue? = some b.toInt)
    (run : Expr.eval depth frame left s = some (.ok (.int a), s))
    (run' : Expr.eval depth frame right s = some (.ok (.int b), s)) :
    (Expr.binary left op right).ComesOut frame s (depth + 1)
      (Expr.binary left op right).itselfFailing? := by
  have computed : (Expr.binary left op right).exactValue? = op.exactValue? a.toInt b.toInt := by
    rw [Expr.exactValue?, first, second]
    rfl
  have step : Expr.eval (depth + 1) frame (.binary left op right) s =
      (op.applyInt a b).raise s := (andThen_of_ok run).trans (andThen_of_ok run')
  unfold Expr.itselfFailing?
  by_cases fits : (Expr.binary left op right).isRepresentable
  · rw [if_pos fits]
    rw [Expr.isRepresentable, computed] at fits
    obtain ⟨v, same, kept⟩ := BinaryOp.applyInt_exact fits
    refine ⟨v, by rw [computed, same], ?_⟩
    rw [step, kept]
    rfl
  · rw [if_neg fits]
    rw [Expr.isRepresentable, computed] at fits
    obtain ⟨cause, kept, fails⟩ := BinaryOp.applyInt_fails arithmetic (Bool.eq_false_iff.mpr fits)
    refine ⟨cause, .operation first second fails, ?_⟩
    rw [step, kept]
    rfl

end

/-- An arithmetic expression is evaluated up to its first failure, at any depth that its size
allows. -/
theorem Expr.comesOut (frame : Nat) (s : Store) : ∀ e : Expr, e.everywhere .arithmetic →
    ∀ depth, e.postorder.length ≤ depth → e.ComesOut frame s depth e.firstFailing?
  | .int n, _, depth, le => by
    obtain ⟨depth, rfl⟩ := Nat.exists_eq_add_of_le' (show 1 ≤ depth from le)
    have fits : (Expr.int n).isRepresentable := inWord_toInt n
    have sound : (Expr.int n).firstFailing? = none :=
      (Expr.find?_itself (.int n)).trans (if_pos fits)
    rw [sound]
    exact ⟨n, rfl, rfl⟩
  | .unary op operand, pass, depth, le => by
    simp only [Expr.everywhere, Bool.and_eq_true] at pass
    obtain rfl : op = .neg := of_decide_eq_true pass.1
    rw [Expr.postorder, List.length_append, List.length_singleton] at le
    obtain ⟨depth, rfl⟩ := Nat.exists_eq_add_of_le' (show 1 ≤ depth by omega)
    have inner := operand.comesOut frame s pass.2 depth (by omega)
    rw [Expr.firstFailing?_unary]
    cases first : operand.firstFailing? with
    | some node =>
      rw [first] at inner
      obtain ⟨cause, fails, run⟩ := inner
      exact ⟨cause, fails, andThen_of_error run⟩
    | none =>
      rw [first] at inner
      obtain ⟨a, value, run⟩ := inner
      exact Expr.comesOut_negation value run
  | .binary left op right, pass, depth, le => by
    simp only [Expr.everywhere, Bool.and_eq_true] at pass
    obtain ⟨⟨arithmetic, passLeft⟩, passRight⟩ := pass
    rw [Expr.postorder, List.length_append, List.length_append, List.length_singleton] at le
    obtain ⟨depth, rfl⟩ := Nat.exists_eq_add_of_le' (show 1 ≤ depth by omega)
    have before := left.comesOut frame s passLeft depth (by omega)
    have after := right.comesOut frame s passRight depth (by omega)
    rw [Expr.firstFailing?_binary]
    cases first : left.firstFailing? with
    | some node =>
      rw [first] at before
      obtain ⟨cause, fails, run⟩ := before
      exact ⟨cause, fails, andThen_of_error run⟩
    | none =>
      rw [first] at before
      obtain ⟨a, value, run⟩ := before
      cases second : right.firstFailing? with
      | some node =>
        rw [second] at after
        obtain ⟨cause, fails, run'⟩ := after
        exact ⟨cause, fails, (andThen_of_ok run).trans (andThen_of_error run')⟩
      | none =>
        rw [second] at after
        obtain ⟨b, value', run'⟩ := after
        exact Expr.comesOut_operation arithmetic value value' run run'
  | .name _, pass, _, _ | .bool _, pass, _, _ | .cond _ _ _, pass, _, _
  | .routine _ _ _, pass, _, _ | .call _ _, pass, _, _ => by
    have root := Expr.onExpr_of_everywhere pass
    cases root

/-- An arithmetic expression all of which is representable comes to its exact value. Otherwise it
comes to the fault of the first in it that is not, with operands before their operation and from
the left, and the fault speaks of the exact operands. One of these it comes to at any depth that its
size allows, and leaves the store as it was. -/
theorem arithmetic_exact (e : Expr) (plain : e.everywhere .arithmetic) (frame : Nat) (s : Store)
    (depth : Nat) (enough : e.postorder.length ≤ depth) :
    ((∀ node ∈ e.postorder, node.isRepresentable) →
      ∃ v : Int64, e.exactValue? = some v.toInt ∧
        Expr.eval depth frame e s = some (.ok (.int v), s)) ∧
    (∀ before node after, e.postorder = before ++ node :: after →
      (∀ earlier ∈ before, earlier.isRepresentable) → node.isRepresentable = false →
      ∃ cause : Fault, node.Fails cause.message ∧
        Expr.eval depth frame e s = some (.error (.fault cause), s)) := by
  have out := e.comesOut frame s plain depth enough
  constructor
  · intro all
    have sound : e.firstFailing? = none := by
      apply List.find?_eq_none.mpr
      intro node inside
      rw [all node inside]
      decide
    rw [sound] at out
    exact out
  · intro before node after order fine fails
    have first : e.firstFailing? = some node := by
      apply List.find?_eq_some_iff_append.mpr
      refine ⟨by rw [fails]; rfl, before, after, order, ?_⟩
      intro earlier inside
      rw [fine earlier inside]
      rfl
    rw [first] at out
    exact out

def leastNegated : Expr := .binary (.int Int64.minValue) .div (.int (-1))

/-- Minus seven divided by two is minus three. The least word divided by minus one is out of range,
and that is the fault of the whole although what is left of it is divided by zero. -/
theorem arithmetic_exact_divisions :
    (∃ v : Int64, v.toInt = -3 ∧
      Expr.eval 4 0 (.binary (.unary .neg (.int 7)) .div (.int 2)) .initial =
        some (.ok (.int v), .initial)) ∧
    ∃ cause : Fault, cause.message = "integer overflow: -9223372036854775808 / -1" ∧
      Expr.eval 5 0 (.binary leastNegated .div (.int 0)) .initial =
        some (.error (.fault cause), .initial) := by
  constructor
  · obtain ⟨v, computed, run⟩ := (arithmetic_exact
      (.binary (.unary .neg (.int 7)) .div (.int 2)) rfl 0 .initial 4 (by decide)).1 (by decide)
    have value : Expr.exactValue? (.binary (.unary .neg (.int 7)) .div (.int 2)) = some (-3) := by
      decide
    exact ⟨v, Option.some.inj (computed.symm.trans value), run⟩
  · obtain ⟨cause, fails, run⟩ :=
      (arithmetic_exact (.binary leastNegated .div (.int 0)) rfl 0 .initial 5 (by decide)).2
        [.int Int64.minValue, .int (-1)] leastNegated _ rfl (by decide) (by decide)
    refine ⟨cause, ?_, run⟩
    cases fails with
    | operation first second why =>
      cases first
      cases second
      generalize cause.message = message at why
      cases why with
      | large => rfl

end Quasiquote
