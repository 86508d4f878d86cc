import Quasiquote.Evaluation
import Quasiquote.Proofs.Likeness.Store

/-!
# Evaluation in stores that are alike

`Expr.eval_mirrors`: expressions that are alike, in paired frames of stores that are alike, give
values that are alike, and the stores stay alike; the second evaluation may go deeper than the
first. So which numbers frames and values have, and what else is in the store, shows in no result.
-/

namespace Quasiquote

open Eval

abbrev ValueEnds (naming : Naming) : Pairing → Except Value Value → Except Value Value → Prop :=
  EndsAlike (Value.Alike naming) (Value.Alike naming)

abbrev GivenEnds (naming : Naming) :
    Pairing → Except Value (Option Value) → Except Value (Option Value) → Prop :=
  EndsAlike (Value.Alike naming) fun p => Option.Rel (Value.Alike naming p)

/-- One evaluator mirrors another over expressions that are alike, in paired frames. -/
def Evaluator.Mirrors (naming : Naming) (alike : Pairing → Store → Store → Prop)
    (eval eval' : Evaluator) : Prop :=
  ∀ p i j x y, p.frames i j → x.Alike naming y →
    Eval.Mirrors alike p (ValueEnds naming) (eval i x).run (eval' j y).run

section
variable {naming : Naming} {alike : Pairing → Store → Store → Prop} {p : Pairing}

namespace Eval.Mirrors

theorem raise {v w : Value} (h : v.Alike naming p w) :
    Mirrors alike p (ValueEnds naming) v.raise.run w.raise.run := by
  unfold Value.raise
  rw [h.isSignal_eq]
  split
  · exact throw h
  · exact ok h

theorem settled {x y : Signalling Value}
    (h : Mirrors alike p (ValueEnds naming) x.run y.run) :
    Mirrors alike p (Value.Alike naming) x.settled y.settled := by
  refine bind h fun q _ outcome outcome' ended => ?_
  cases outcome <;> cases outcome'
  case ok.ok => exact pure ended
  case error.error => exact pure ended
  all_goals exact ended.elim

theorem settled? {x y : Signalling (Option Value)}
    (h : Mirrors alike p (GivenEnds naming) x.run y.run) :
    Mirrors alike p (fun q => Option.Rel (Value.Alike naming q)) x.settled?
      y.settled? := by
  refine bind h fun q _ outcome outcome' ended => ?_
  cases outcome <;> cases outcome'
  case ok.ok => exact pure ended
  case error.error => exact pure (.some ended)
  all_goals exact ended.elim

theorem catchReturn {x y : Signalling Value}
    (h : Mirrors alike p (ValueEnds naming) x.run y.run) :
    Mirrors alike p (ValueEnds naming) x.catchReturn.run y.catchReturn.run := by
  refine catching h fun q _ v w like => ?_
  have whole := like
  cases like with
  | returned inner => exact raise inner
  | _ => exact throw whole

end Eval.Mirrors

theorem Value.spliced_mirrors {v w : Value} (h : v.Alike naming p w) :
    Mirrors alike p (EndsAlike (Value.Alike naming) fun _ => Expr.Alike naming)
      v.spliced.run w.spliced.run := by
  unfold Value.spliced
  have nodes := h.syntax?
  revert nodes
  generalize v.syntax? = x, w.syntax? = y
  intro nodes
  cases nodes with
  | some node => exact .ok node
  | none =>
    dsimp only
    rw [h.isFault_eq, h.kind_eq]
    split
    · exact .throw h
    · exact .throw (.fault (.other (by simp)))

variable {eval eval' : Evaluator} (evals : Evaluator.Mirrors naming alike eval eval')
include evals

theorem evalEach_mirrors {i j : Nat} (paired : p.frames i j) {xs ys : List Expr}
    (h : ArgsMatch naming noSpot xs ys) :
    Mirrors alike p
      (EndsAlike (Value.Alike naming) fun q => List.Forall₂ (Value.Alike naming q))
      (evalEach eval i xs).run (evalEach eval' j ys).run := by
  induction xs generalizing ys p with
  | nil => cases h; exact .ok .nil
  | cons x xs ih =>
    cases h with
    | cons first rest =>
      exact (evals p i j _ _ paired first).andThen fun q le v w like =>
        (ih (le.1 _ _ paired) rest).andThen fun r le' vs ws likes =>
          .ok (.cons (like.mono le') likes)

theorem splice_mirrors {i j : Nat} (paired : p.frames i j) :
    RuleMirrors alike naming noSpot (Value.Alike naming) (splice eval i)
      (splice eval' j) p where
  node q le x y h := by
    cases h with
    | spot h => exact h.elim
    | call callee args =>
      cases args with
      | nil => exact .ok (.call callee .nil)
      | cons first rest =>
        cases rest with
        | nil =>
          simp only [splice, callee.name?_eq.2]
          split
          · refine (Mirrors.lift (evals q i j _ _ (le.1 _ _ paired) first).settled).andThen
              fun r _ v w like => ?_
            exact Value.spliced_mirrors like
          · exact .ok (.call callee (.cons first .nil))
        | cons second rest => exact .ok (.call callee (.cons first (.cons second rest)))
    | name names => exact .ok (.name names)
    | int n => exact .ok (.int n)
    | bool b => exact .ok (.bool b)
    | unary op operand => exact .ok (.unary op operand)
    | binary op left right => exact .ok (.binary op left right)
    | cond test consequence alternative => exact .ok (.cond test consequence alternative)
    | routine role params body => exact .ok (.routine role params body)
  spots _ _ _ _ h := h.elim

variable (likeness : Likeness naming alike)
include likeness

theorem Stmt.evalWith_mirrors {i j : Nat} (paired : p.frames i j) {s t : Stmt}
    (h : s.Match naming noSpot t) :
    Mirrors alike p (GivenEnds naming) (s.evalWith eval i).run
      (t.evalWith eval' j).run := by
  cases h with
  | expr value => exact (evals p i j _ _ paired value).andThen fun q _ v w like => .ok (.some like)
  | bind names value =>
    refine (evals p i j _ _ paired value).andThen fun q le v w like => ?_
    have inserted :=
      Eval.Mirrors.insert likeness (le.1 _ _ paired) (naming.binds_of_pairs names) like
    exact (Mirrors.lift inserted).andThen fun _ _ _ _ _ => .ok .none
  | ret value =>
    exact (evals p i j _ _ paired value).andThen fun q _ v w like => .throw (.returned like)

theorem Block.evalFrom_mirrors {i j : Nat} (paired : p.frames i j) {b c : Block}
    (h : BlockAlike naming b c) {given given' : Option Value}
    (like : Option.Rel (Value.Alike naming p) given given') :
    Mirrors alike p (GivenEnds naming) (Block.evalFrom eval i given b).run
      (Block.evalFrom eval' j given' c).run := by
  induction b generalizing c p given given' with
  | nil => cases h; exact .ok like
  | cons s rest ih =>
    cases h with
    | cons first rest' =>
      exact (Stmt.evalWith_mirrors evals likeness paired first).andThen fun q le _ _ like' =>
        ih (le.1 _ _ paired) rest' like'

theorem Block.valueWith_mirrors {i j : Nat} (paired : p.frames i j) {b c : Block}
    (h : BlockAlike naming b c) :
    Mirrors alike p (ValueEnds naming) (Block.valueWith eval i b).run
      (Block.valueWith eval' j c).run := by
  refine (Block.evalFrom_mirrors evals likeness paired h .none).andThen
    fun q _ given given' like => .ok ?_
  cases like with
  | some like => exact like
  | none => exact .null

theorem Value.callWith_mirrors {f g : Value} (h : f.Alike naming p g) {vs ws : List Value}
    (args : List.Forall₂ (Value.Alike naming p) vs ws) :
    Mirrors alike p (ValueEnds naming) (f.callWith eval vs).run
      (g.callWith eval' ws).run := by
  have kinds := h.kind_eq
  cases h with
  | routine role serials params body frames =>
    cases role with
    | transformer => exact .throw (.fault (.other (by simp)))
    | function =>
      simp only [Value.callWith, params.length_eq, args.length_eq]
      split
      · refine (Mirrors.lift (.openFrame likeness ?_)).andThen fun q le i j paired => ?_
        · exact Closure.callFrame_alike params frames args
        · exact (Block.valueWith_mirrors evals likeness paired body).catchReturn
      · exact .throw (.fault (.other (by simp)))
  | _ =>
    simp only [Value.callWith, kinds]
    exact .throw (.fault (.other (by simp)))

theorem Expr.quoteWith_mirrors {i j : Nat} (paired : p.frames i j) {x y : Expr}
    (h : x.Alike naming y) :
    Mirrors alike p (ValueEnds naming) (x.quoteWith eval i).run
      (y.quoteWith eval' j).run :=
  (Expr.rewriteM_mirrors (splice_mirrors evals paired) h).andThen fun _ _ _ _ node =>
    (Mirrors.lift (.newSerial likeness)).andThen fun _ _ _ _ serials =>
      .ok (.quotation serials node)

theorem quoteCall_mirrors {i j : Nat} (paired : p.frames i j) {xs ys : List Expr}
    (h : ArgsMatch naming noSpot xs ys) :
    Mirrors alike p (ValueEnds naming) (quoteCall eval i xs).run
      (quoteCall eval' j ys).run := by
  have lengths := h.length_eq
  unfold quoteCall
  cases h with
  | nil => exact .throw (.fault (.other (by simp)))
  | cons first rest =>
    cases rest with
    | nil => exact Expr.quoteWith_mirrors evals likeness paired first
    | cons _ _ =>
      simp only [lengths]
      exact .throw (.fault (.other (by simp)))

theorem Expr.evalWith_mirrors {i j : Nat} (paired : p.frames i j) {x y : Expr}
    (h : x.Alike naming y) :
    Mirrors alike p (ValueEnds naming) (x.evalWith eval i).run
      (y.evalWith eval' j).run := by
  cases h with
  | spot h => exact h.elim
  | int n => exact .ok (.int n)
  | bool b => exact .ok (.bool b)
  | name names =>
    refine (Mirrors.lift (.find? likeness paired names)).andThen
      fun q _ found found' like => .raise ?_
    cases like with
    | some like => exact like
    | none => exact .fault (.unbound names)
  | unary op operand =>
    exact (evals p i j _ _ paired operand).andThen fun q _ v w like => .raise (op.apply_alike like)
  | binary op left right =>
    exact (evals p i j _ _ paired left).andThen fun q le v w like =>
      (evals q i j _ _ (le.1 _ _ paired) right).andThen fun r le' v' w' like' =>
        .raise (op.apply_alike (like.mono le') like')
  | cond test consequence alternative =>
    refine (evals p i j _ _ paired test).andThen fun q le v w like => ?_
    rw [like.isTruthy_eq]
    split
    · exact Block.valueWith_mirrors evals likeness (le.1 _ _ paired) consequence
    · cases alternative with
      | none => exact .ok .null
      | some block => exact Block.valueWith_mirrors evals likeness (le.1 _ _ paired) block
  | routine role params body =>
    cases role with
    | function =>
      have binds := params.imp fun _ _ => naming.binds_of_pairs
      exact (Mirrors.lift (.newSerial likeness)).andThen fun q le _ _ serials =>
        .ok (.routine .function serials binds body (le.1 _ _ paired))
    | transformer => exact .throw (.fault (.other (by simp)))
  | call callee args =>
    rw [Expr.evalWith, Expr.evalWith]
    simp only [callee.name?_eq.1]
    split
    · exact quoteCall_mirrors evals likeness paired args
    · exact (evals p i j _ _ paired callee).andThen fun q le f g like =>
        (evalEach_mirrors evals (le.1 _ _ paired) args).andThen fun r le' vs ws likes =>
          Value.callWith_mirrors evals likeness (like.mono le') likes

end

section
variable {naming : Naming} {alike : Pairing → Store → Store → Prop}
variable (likeness : Likeness naming alike) {depth depth' : Nat} (le : depth ≤ depth')
include likeness le

/-- Evaluation in stores that are alike ends alike, at any depth that is no less. -/
theorem Expr.eval_mirrors :
    Evaluator.Mirrors naming alike (Expr.eval depth) (Expr.eval depth') := by
  induction depth generalizing depth' with
  | zero => exact fun _ _ _ _ _ _ _ => .exhausted
  | succ depth ih =>
    cases depth' with
    | zero => cases le
    | succ depth' =>
      exact fun p i j x y paired h =>
        Expr.evalWith_mirrors (ih (Nat.le_of_succ_le_succ le)) likeness paired h

theorem Block.eval_mirrors {p : Pairing} {i j : Nat} (paired : p.frames i j) {b c : Block}
    (h : BlockAlike naming b c) :
    Mirrors alike p (GivenEnds naming) (Block.eval depth i b).run (Block.eval depth' j c).run :=
  Block.evalFrom_mirrors (Expr.eval_mirrors likeness le) likeness paired h .none

theorem Value.call_mirrors {p : Pairing} {f g : Value} (h : f.Alike naming p g)
    {vs ws : List Value} (args : List.Forall₂ (Value.Alike naming p) vs ws) :
    Mirrors alike p (ValueEnds naming) (f.call depth vs).run (g.call depth' ws).run :=
  Value.callWith_mirrors (Expr.eval_mirrors likeness le) likeness h args

theorem Program.eval_mirrors {p : Pairing} {i j : Nat} (paired : p.frames i j) {b c : Program}
    (h : BlockAlike naming b c) :
    Mirrors alike p (fun q => Option.Rel (Value.Alike naming q)) (b.eval depth i)
      (c.eval depth' j) := by
  apply (Block.eval_mirrors likeness le paired h).settled?.bind
  intro q _ given given' like
  apply Mirrors.pure
  cases like with
  | none => exact .none
  | some like => exact .some like.unwrapped

end

end Quasiquote
