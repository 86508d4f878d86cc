import Quasiquote.Proofs.Evaluation.Depth
import Quasiquote.Proofs.Store.Giving
import Quasiquote.Session

/-!
# What a run of a source does

* `Session.run_of_unreadable`: a source without a program is rejected at once.
* `Session.run_of_program`: the macros of a program are bound, the rest is expanded, and what comes
  of that is evaluated, as far as it gets.
* `Session.run_deepens`: a greater depth deepens a run, and only that.
* `Session.Runs`: what a run comes to at some depth, which is one thing at most.
-/

namespace Quasiquote

open Eval

/-! ## Depth -/

theorem Eval.Deepens.adapt {ε δ α : Type} {x y : ExceptT ε Eval α} (h : x.run.Deepens y.run)
    (f : ε → δ) : (x.adapt f).run.Deepens (y.adapt f).run := by
  intro s r run
  have from' : (x.adapt f) s = some r := run
  change (y.adapt f) s = some r
  rw [adapt_apply, Option.map_eq_some_iff] at from' ⊢
  obtain ⟨given, first, eq⟩ := from'
  exact ⟨given, h s given first, eq⟩

section
variable {depth depth' : Nat} (le : depth ≤ depth')
include le

theorem MacroCall.eval_deepens (call : MacroCall) :
    (call.eval depth).Deepens (call.eval depth') := by
  refine (Deepens.refl _).bind ?_
  intro serials
  refine (Deepens.refl _).bind ?_
  intro frame
  exact (Block.eval_deepens le frame call.closure.body).settled?

theorem expandNode_deepens (frame : Nat) (e : Expr) :
    (expandNode frame depth e).run.Deepens (expandNode frame depth' e).run := by
  induction depth generalizing depth' e with
  | zero => exact .exhausted
  | succ depth ih =>
    cases depth' with
    | zero => cases le
    | succ depth' =>
      have le := Nat.le_of_succ_le_succ le
      rw [expandNode, expandNode]
      refine Deepens.andThen (.refl _) ?_
      intro s
      split
      · exact .refl _
      · next call _ =>
        split
        · refine (Deepens.lift (call.eval_deepens le)).andThen ?_
          intro given
          refine Deepens.andThen (.refl _) ?_
          intro node
          exact Expr.rewriteM_deepens (fun e => ih le e) node
        · exact .refl _

theorem Program.expand_deepens (frame : Nat) (program : Program) :
    (program.expand depth frame).run.Deepens (program.expand depth' frame).run :=
  Program.rewriteM_deepens (expandNode_deepens le frame) program

theorem Program.eval_deepens (frame : Nat) (program : Program) :
    (program.eval depth frame).Deepens (program.eval depth' frame) :=
  (Block.eval_deepens le frame program).settled?.bind fun _ => .refl _

theorem Session.run_deepens (source : String) :
    (Session.run depth source).run.Deepens (Session.run depth' source).run := by
  refine Deepens.andThen (.refl _) ?_
  intro program
  have prepared : (prepare depth globals program).run.Deepens
      (prepare depth' globals program).run := by
    refine Deepens.andThen (.refl _) ?_
    intro _
    exact Program.expand_deepens le globals program.withoutMacros
  refine (prepared.adapt _).andThen ?_
  intro expanded
  exact .lift (Program.eval_deepens le globals expanded)

end

namespace Session

/-! ## Stages -/

section
variable {depth : Nat} {source : String} {program : Program} {s : Store}

theorem run_of_unreadable {rejection : Rejection}
    (read : Program.ofSource source = .error rejection) :
    run depth source s = some (.error rejection, s) := by
  refine andThen_of_error ?_
  rw [read]
  rfl

theorem run_of_program (read : Program.ofSource source = .ok program) :
    run depth source s =
      match program.withoutMacros.expand depth globals (s.bindMacros globals program) with
      | none => none
      | some (.error e, t) => some (.error (.expansion e), t)
      | some (.ok expanded, t) => (expanded.eval depth globals t).map fun (given, u) =>
          (.ok given, u) := by
  have bound : (ExceptT.mk (pure (Program.ofSource source)) : ExceptT Rejection Eval Program) s =
      some (.ok program, s) := by
    rw [read]
    rfl
  refine (andThen_of_ok bound).trans ?_
  have adapted := adapt_apply (prepare depth globals program) Rejection.expansion s
  have prepared : prepare depth globals program s =
      program.withoutMacros.expand depth globals (s.bindMacros globals program) := rfl
  rw [prepared] at adapted
  cases came : program.withoutMacros.expand depth globals (s.bindMacros globals program) with
  | none =>
    rw [came] at adapted
    exact andThen_of_none adapted
  | some result =>
    obtain ⟨outcome, t⟩ := result
    rw [came] at adapted
    cases outcome with
    | error e => exact andThen_of_error adapted
    | ok expanded => exact (andThen_of_ok adapted).trans (lift_apply _ t)

theorem eq_ok_of_toOption {ε α : Type} {x : Except ε α} {a : α} (h : x.toOption = some a) :
    x = .ok a := by
  cases x with
  | error e => cases h
  | ok b => exact congrArg _ (Option.some.inj h)

/-- A run that is not rejected can be told from what it gives and leaves. -/
theorem run_of_toOption {given : Option Value} {t : Store}
    (ran : (run depth source s).map (fun r => (r.1.toOption, r.2)) = some (some given, t)) :
    run depth source s = some (.ok given, t) := by
  obtain ⟨⟨out, u⟩, came, same⟩ := Option.map_eq_some_iff.mp ran
  obtain ⟨outcome, rfl⟩ := Prod.mk.inj same
  obtain rfl : out = .ok given := eq_ok_of_toOption outcome
  exact came

end

/-! ## Runs at some depth -/

/-- What a run of a source comes to at some depth, from one store to another. -/
def Runs (source : String) (s : Store) (out : Except Rejection (Option Value)) (t : Store) : Prop :=
  ∃ depth, run depth source s = some (out, t)

section
variable {source : String} {s t u : Store} {out out' : Except Rejection (Option Value)}

/-- A run comes to what it comes to at depths that are as great as one likes. -/
theorem Runs.beyond (h : Runs source s out t) (least : Nat) :
    ∃ depth, least ≤ depth ∧ run (depth + 1) source s = some (out, t) := by
  obtain ⟨depth, ran⟩ := h
  refine ⟨max least depth, le_max_left _ _, ?_⟩
  exact run_deepens (Nat.le_succ_of_le (le_max_right _ _)) source s _ ran

/-- A run comes to one thing at most. -/
theorem Runs.unique (h : Runs source s out t) (h' : Runs source s out' u) : out = out' ∧ t = u := by
  obtain ⟨least, ran⟩ := h
  obtain ⟨depth, le, ran'⟩ := h'.beyond least
  have deeper := run_deepens (Nat.le_succ_of_le le) source s _ ran
  cases deeper.symm.trans ran'
  exact ⟨rfl, rfl⟩

end

end Session

end Quasiquote
