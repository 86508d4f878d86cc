import Quasiquote.Evaluation
import Quasiquote.Proofs.Rewriting.Rebuilding

/-!
# Depth

A depth that suffices gives the same as any greater one.

* `Eval.Deepens x y`: whatever `x` gives from a store, `y` gives from it too. This goes through
  every way of putting computations together.
* `Expr.eval_deepens`: a greater depth deepens evaluation, and only that.
-/

namespace Quasiquote

/-- Whatever the first computation gives, the second gives from the same store. -/
def Eval.Deepens {α : Type} (x y : Eval α) : Prop := ∀ s r, x s = some r → y s = some r

namespace Eval.Deepens

variable {α β ε : Type}

theorem refl (x : Eval α) : x.Deepens x := fun _ _ run => run

theorem exhausted {y : Eval α} : (Eval.exhausted : Eval α).Deepens y := by
  intro s r run
  cases run

theorem bind {x y : Eval α} {f g : α → Eval β} (h : x.Deepens y)
    (next : ∀ a, (f a).Deepens (g a)) : (x >>= f).Deepens (y >>= g) := by
  intro s r run
  rw [Eval.bind_apply] at run ⊢
  cases first : x s with
  | none =>
    rw [first] at run
    cases run
  | some result =>
    rw [first] at run
    rw [h s result first]
    exact next result.1 result.2 r run

/-! ## Computations that may be cut short -/

theorem lift {x y : Eval α} (h : x.Deepens y) :
    (liftM x : ExceptT ε Eval α).run.Deepens (liftM y : ExceptT ε Eval α).run :=
  bind h fun a => refl (pure (Except.ok a))

theorem andThen {x y : ExceptT ε Eval α} {f g : α → ExceptT ε Eval β} (h : x.run.Deepens y.run)
    (next : ∀ a, (f a).run.Deepens (g a).run) : (x >>= f).run.Deepens (y >>= g).run := by
  rw [ExceptT.run_bind, ExceptT.run_bind]
  refine bind h fun outcome => ?_
  cases outcome with
  | ok a => exact next a
  | error e => exact refl _

theorem settled {x y : Signalling Value} (h : x.run.Deepens y.run) :
    x.settled.Deepens y.settled := bind h fun _ => refl _

theorem settled? {x y : Signalling (Option Value)} (h : x.run.Deepens y.run) :
    x.settled?.Deepens y.settled? := bind h fun _ => refl _

theorem catchReturn {x y : Signalling Value} (h : x.run.Deepens y.run) :
    x.catchReturn.run.Deepens y.catchReturn.run := by
  change Deepens (ExceptT.tryCatch x _) (ExceptT.tryCatch y _)
  exact bind h fun _ => refl _

/-- What a computation gives at two depths is the same, if going deeper makes no difference. -/
theorem unique {x : Nat → Eval α} (deeper : ∀ {depth depth'}, depth ≤ depth' →
    (x depth).Deepens (x depth')) {depth depth' : Nat} {s : Store} {r r' : α × Store}
    (h : x depth s = some r) (h' : x depth' s = some r') : r = r' := by
  rcases Nat.le_total depth depth' with le | le
  · exact Option.some.inj ((deeper le s r h).symm.trans h')
  · exact Option.some.inj (h.symm.trans (deeper le s r' h'))

end Eval.Deepens

open Eval

theorem Eval.Deepens.agreeing {ε : Type} :
    Agreeing (fun α (x y : ExceptT ε Eval α) => x.run.Deepens y.run) where
  done _ := .refl _
  andThen h next := h.andThen next

section
variable {ε : Type} {rule rule' : Expr → ExceptT ε Eval Expr}
  (h : ∀ e, (rule e).run.Deepens (rule' e).run)
include h

/-- A rewrite by a rule that goes deeper is the same rewrite gone deeper. -/
theorem Expr.rewriteM_deepens (e : Expr) :
    (e.rewriteM rule).run.Deepens (e.rewriteM rule').run :=
  Expr.rewriteM_related Deepens.agreeing h e

theorem Program.rewriteM_deepens (program : Program) :
    (program.rewriteM rule).run.Deepens (program.rewriteM rule').run :=
  Program.rewriteM_related Deepens.agreeing h program

end

/-! ## Evaluators -/

/-- One evaluator gives whatever another gives. -/
def Evaluator.Deepens (eval eval' : Evaluator) : Prop :=
  ∀ frame e, (eval frame e).run.Deepens (eval' frame e).run

section
variable {eval eval' : Evaluator} (deeper : eval.Deepens eval')
include deeper

theorem Stmt.evalWith_deepens (frame : Nat) (s : Stmt) :
    (s.evalWith eval frame).run.Deepens (s.evalWith eval' frame).run := by
  cases s with
  | expr value | bind name value | ret value =>
    exact Deepens.andThen (deeper frame value) fun _ => .refl _

theorem Block.evalFrom_deepens (frame : Nat) (given : Option Value) (block : Block) :
    (Block.evalFrom eval frame given block).run.Deepens
      (Block.evalFrom eval' frame given block).run := by
  induction block generalizing given with
  | nil => exact .refl _
  | cons s rest ih =>
    refine (Stmt.evalWith_deepens deeper frame s).andThen ?_
    intro given
    exact ih given

theorem Block.valueWith_deepens (frame : Nat) (block : Block) :
    (Block.valueWith eval frame block).run.Deepens (Block.valueWith eval' frame block).run :=
  (Block.evalFrom_deepens deeper frame none block).andThen fun _ => .refl _

theorem evalEach_deepens (frame : Nat) (args : List Expr) :
    (evalEach eval frame args).run.Deepens (evalEach eval' frame args).run := by
  induction args with
  | nil => exact .refl _
  | cons x rest ih =>
    refine (deeper frame x).andThen ?_
    intro v
    refine ih.andThen ?_
    intro vs
    exact .refl _

theorem Value.callWith_deepens (callee : Value) (args : List Value) :
    (callee.callWith eval args).run.Deepens (callee.callWith eval' args).run := by
  unfold Value.callWith
  split
  · split
    · refine Deepens.andThen (.refl _) ?_
      intro frame
      exact (Block.valueWith_deepens deeper frame _).catchReturn
    · exact .refl _
  · exact .refl _

theorem splice_deepens (frame : Nat) (e : Expr) :
    (splice eval frame e).run.Deepens (splice eval' frame e).run := by
  unfold splice
  split
  · split
    · exact (Deepens.lift (deeper frame _).settled).andThen fun _ => .refl _
    · exact .refl _
  · exact .refl _

theorem Expr.quoteWith_deepens (frame : Nat) (node : Expr) :
    (node.quoteWith eval frame).run.Deepens (node.quoteWith eval' frame).run :=
  (Expr.rewriteM_deepens (splice_deepens deeper frame) node).andThen fun _ => .refl _

theorem quoteCall_deepens (frame : Nat) (args : List Expr) :
    (quoteCall eval frame args).run.Deepens (quoteCall eval' frame args).run := by
  unfold quoteCall
  split
  · exact Expr.quoteWith_deepens deeper frame _
  · exact .refl _

theorem Expr.evalWith_deepens (frame : Nat) (e : Expr) :
    (e.evalWith eval frame).run.Deepens (e.evalWith eval' frame).run := by
  cases e with
  | int | bool | name => exact .refl _
  | unary op operand => exact Deepens.andThen (deeper frame operand) fun _ => .refl _
  | binary left op right =>
    refine Deepens.andThen (deeper frame left) ?_
    intro a
    refine (deeper frame right).andThen ?_
    intro b
    exact .refl _
  | cond test consequence alternative =>
    refine Deepens.andThen (deeper frame test) ?_
    intro v
    split
    · exact Block.valueWith_deepens deeper frame consequence
    · cases alternative with
      | some block => exact Block.valueWith_deepens deeper frame block
      | none => exact .refl _
  | routine role => cases role <;> exact .refl _
  | call callee args =>
    rw [Expr.evalWith, Expr.evalWith]
    split
    · exact quoteCall_deepens deeper frame args
    · refine (deeper frame callee).andThen ?_
      intro f
      refine (evalEach_deepens deeper frame args).andThen ?_
      intro vs
      exact Value.callWith_deepens deeper f vs

end

theorem Expr.eval_deepens {depth depth' : Nat} (le : depth ≤ depth') :
    Evaluator.Deepens (Expr.eval depth) (Expr.eval depth') := by
  induction depth generalizing depth' with
  | zero => exact fun _ _ => .exhausted
  | succ depth ih =>
    cases depth' with
    | zero => cases le
    | succ depth' =>
      intro frame e
      exact Expr.evalWith_deepens (ih (Nat.le_of_succ_le_succ le)) frame e

theorem Block.eval_deepens {depth depth' : Nat} (le : depth ≤ depth') (frame : Nat)
    (block : Block) :
    (Block.eval depth frame block).run.Deepens (Block.eval depth' frame block).run :=
  Block.evalFrom_deepens (Expr.eval_deepens le) frame none block

end Quasiquote
