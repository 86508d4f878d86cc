import Quasiquote.Proofs.Syntax.Everywhere

/-!
# The parts of an expression

* `Expr.parts`: the expressions directly inside an expression, in order.
* `Expr.everywhere_iff`: a test of expressions passes everywhere in an expression if it passes on
  the expression and everywhere in its parts.
* `Expr.partwise`: what holds of an expression if it holds of its parts holds of all of them.
* `Expr.Has`: an expression has itself inside it, and what its parts have.
-/

namespace Quasiquote

/-- The expressions directly inside an expression, in order. -/
def Expr.parts : Expr → List Expr
  | .name _ | .int _ | .bool _ => []
  | .unary _ operand => [operand]
  | .binary left _ right => [left, right]
  | .cond test consequence alternative =>
    test :: (consequence.map Stmt.value ++ (alternative.getD []).map Stmt.value)
  | .routine _ _ body => body.map Stmt.value
  | .call callee args => callee :: args

section
variable {pass : Expr → Prop}

theorem Expr.forall_parts_cond {test : Expr} {consequence : Block} {alternative : Option Block} :
    (∀ part ∈ (Expr.cond test consequence alternative).parts, pass part) ↔
      pass test ∧ (∀ s ∈ consequence, pass s.value) ∧
        ∀ block ∈ alternative, ∀ s ∈ block, pass (Stmt.value s) := by
  cases alternative <;> simp [Expr.parts, or_imp, forall_and]

theorem Expr.forall_parts_routine {role : Role} {params : List String} {body : Block} :
    (∀ part ∈ (Expr.routine role params body).parts, pass part) ↔
      ∀ s ∈ body, pass (Stmt.value s) := by
  simp [Expr.parts]

end

def Test.ofExprs (onExpr : Expr → Bool) : Test := ⟨onExpr, fun _ => true⟩

theorem Stmt.everywhere_value {test : Test} (s : Stmt) :
    s.everywhere test = s.value.everywhere test := by
  cases s <;> rfl

theorem eachEverywhere_iff {test : Test} (block : Block) :
    eachEverywhere test block ↔ ∀ s ∈ block, s.value.everywhere test := by
  induction block with
  | nil => simp [eachEverywhere]
  | cons s rest ih => simp [eachEverywhere, ih, Stmt.everywhere_value]

theorem argsEverywhere_iff {test : Test} (args : List Expr) :
    argsEverywhere test args ↔ ∀ x ∈ args, x.everywhere test := by
  induction args with
  | nil => simp [argsEverywhere]
  | cons x rest ih => simp [argsEverywhere, ih]

theorem Expr.everywhere_iff {onExpr : Expr → Bool} (e : Expr) :
    e.everywhere (.ofExprs onExpr) ↔
      onExpr e ∧ ∀ part ∈ e.parts, part.everywhere (.ofExprs onExpr) := by
  cases e with
  | cond test consequence alternative =>
    rw [Expr.forall_parts_cond]
    cases alternative <;>
      simp [Expr.everywhere, Test.ofExprs, eachEverywhere_iff, alternativeEverywhere, and_assoc]
  | routine role params body =>
    rw [Expr.forall_parts_routine]
    simp [Expr.everywhere, Test.ofExprs, eachEverywhere_iff]
  | call callee args =>
    simp [Expr.everywhere, Test.ofExprs, Expr.parts, argsEverywhere_iff, and_assoc]
  | _ => simp [Expr.everywhere, Test.ofExprs, Expr.parts, and_assoc]

/-- A test that passes everywhere in an expression does in its parts. -/
theorem Expr.everywhere_of_mem_parts {test : Test} {e part : Expr} (h : e.everywhere test)
    (inside : part ∈ e.parts) : part.everywhere test := by
  revert part
  cases e with
  | cond condition consequence alternative =>
    rw [Expr.forall_parts_cond]
    cases alternative <;>
      simp_all [Expr.everywhere, eachEverywhere_iff, alternativeEverywhere]
  | routine role params body =>
    rw [Expr.forall_parts_routine]
    simp_all [Expr.everywhere, eachEverywhere_iff]
  | call callee args => simp_all [Expr.everywhere, Expr.parts, argsEverywhere_iff]
  | _ => simp_all [Expr.everywhere, Expr.parts]

theorem Program.everywhere_iff {onExpr : Expr → Bool} (program : Program) :
    program.everywhere (.ofExprs onExpr) ↔
      ∀ s ∈ program, s.value.everywhere (.ofExprs onExpr) := by
  simp [Program.everywhere, Test.ofExprs, eachEverywhere_iff]

theorem Stmt.sizeOf_value_lt (s : Stmt) : sizeOf s.value < sizeOf s := by
  cases s with
  | bind name value =>
    rw [Stmt.value, Stmt.bind.sizeOf_spec]
    omega
  | ret value =>
    rw [Stmt.value, Stmt.ret.sizeOf_spec]
    omega
  | expr value =>
    rw [Stmt.value, Stmt.expr.sizeOf_spec]
    omega

theorem Expr.sizeOf_lt_of_mem_parts {e part : Expr} (h : part ∈ e.parts) :
    sizeOf part < sizeOf e := by
  have inBlock {block : Block} (h : part ∈ block.map Stmt.value) : sizeOf part < sizeOf block := by
    obtain ⟨s, inside, rfl⟩ := List.mem_map.mp h
    have inner := s.sizeOf_value_lt
    have outer := List.sizeOf_lt_of_mem inside
    omega
  cases e with
  | name | int | bool => cases h
  | unary op operand =>
    obtain rfl := List.mem_singleton.mp h
    rw [Expr.unary.sizeOf_spec]
    omega
  | binary left op right =>
    rw [Expr.binary.sizeOf_spec]
    rcases List.mem_cons.mp h with rfl | h
    · omega
    · obtain rfl := List.mem_singleton.mp h
      omega
  | cond test consequence alternative =>
    rw [Expr.cond.sizeOf_spec]
    rcases List.mem_cons.mp h with rfl | h
    · omega
    rcases List.mem_append.mp h with h | h
    · have := inBlock h
      omega
    · cases alternative with
      | none => cases h
      | some block =>
        have : sizeOf part < sizeOf block := inBlock h
        rw [Option.some.sizeOf_spec]
        omega
  | routine role params body =>
    have := inBlock h
    rw [Expr.routine.sizeOf_spec]
    omega
  | call callee args =>
    rw [Expr.call.sizeOf_spec]
    rcases List.mem_cons.mp h with rfl | h
    · omega
    · have := List.sizeOf_lt_of_mem h
      omega

/-- What holds of an expression if it holds of its parts holds of every expression. -/
theorem Expr.partwise {P : Expr → Prop} (step : ∀ e : Expr, (∀ part ∈ e.parts, P part) → P e)
    (e : Expr) : P e :=
  step e fun part _ => Expr.partwise step part
termination_by sizeOf e
decreasing_by exact Expr.sizeOf_lt_of_mem_parts ‹_›

/-- The same of every expression where a test passes everywhere. -/
theorem Expr.partwise_of_everywhere {test : Test} {P : (e : Expr) → e.everywhere test → Prop}
    (step : ∀ (e : Expr) (pass : e.everywhere test),
      (∀ (part : Expr) (inside : part ∈ e.parts),
        P part (Expr.everywhere_of_mem_parts pass inside)) →
      P e pass)
    (e : Expr) (pass : e.everywhere test) : P e pass := by
  induction e using Expr.partwise with
  | step e parts =>
    apply step e pass
    intro part inside
    exact parts part inside (Expr.everywhere_of_mem_parts pass inside)

theorem Program.everywhere_of_forall {onExpr : Expr → Bool} (all : ∀ e, onExpr e)
    (program : Program) : program.everywhere (.ofExprs onExpr) := by
  have each (e : Expr) : e.everywhere (.ofExprs onExpr) := by
    induction e using Expr.partwise with
    | step e parts => exact (Expr.everywhere_iff e).mpr ⟨all e, parts⟩
  exact (Program.everywhere_iff program).mpr fun s _ => each s.value

/-- This expression, or one that stands somewhere inside it. -/
inductive Expr.Has : Expr → Expr → Prop
  | here {e : Expr} : Has e e
  | inside {e part x : Expr} (direct : part ∈ e.parts) (more : part.Has x) : Has e x

theorem Expr.Has.part {e x part : Expr} (h : e.Has x) (direct : part ∈ x.parts) : e.Has part := by
  induction h with
  | here => exact .inside direct .here
  | inside outer _ ih => exact .inside outer (ih direct)

theorem Expr.Has.onExpr {onExpr : Expr → Bool} {e x : Expr} (h : e.Has x)
    (pass : e.everywhere (.ofExprs onExpr)) : onExpr x := by
  induction h with
  | here => exact Expr.onExpr_of_everywhere pass
  | inside direct _ ih => exact ih (((Expr.everywhere_iff _).mp pass).2 _ direct)

end Quasiquote
