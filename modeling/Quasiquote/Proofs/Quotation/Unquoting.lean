import Quasiquote.Proofs.Store.Giving

/-!
# Quoting an unquoted expression

* `Expr.noUnquote`: the test that an expression is no call of `unquote` with one argument. Such an
  expression is spliced as it stands (`splice_eq_self`).
* `quote_unquote`: `quote(unquote(e))` splices `e` first, and then evaluates what came of that and
  quotes the syntax of its value. Without calls of `unquote` in `e` that is what `e` itself gives.
* `quote_unquote_staged`: with such a call in a function inside `e` it may not be, since that call
  is met outside of the function.
-/

namespace Quasiquote

/-- The call `quote(e)`. -/
def Expr.quoted (e : Expr) : Expr := .call (.name "quote") [e]

/-- The call `unquote(e)`. -/
def Expr.unquoted (e : Expr) : Expr := .call (.name "unquote") [e]

/-- No call of `unquote` with one argument. -/
def Test.noUnquote : Test :=
  .ofExprs fun
    | .call callee [_] => callee.name? != some "unquote"
    | _ => true

open Eval

section
variable {eval : Evaluator} {frame : Nat} {s : Store}

theorem splice_eq_self {e : Expr} (pass : Test.noUnquote.onExpr e) :
    splice eval frame e s = some (.ok e, s) := by
  unfold splice
  split
  · next callee arg =>
    have other : callee.name? ≠ some "unquote" := by simpa [Test.noUnquote, Test.ofExprs] using pass
    rw [if_neg other]
    rfl
  · rfl

theorem splice_unquoted {e node : Expr} {v : Value} {t : Store}
    (run : (eval frame e).settled s = some (v, t)) (stands : v.syntax? = some node) :
    splice eval frame e.unquoted s = some (.ok node, t) := by
  refine (andThen_of_ok (lift_of_some run)).trans ?_
  unfold Value.spliced
  rw [stands]
  rfl

/-- An unquoted expression is rewritten before it is evaluated. -/
theorem rewriteM_unquoted {e e' node : Expr} {v : Value} {t u : Store}
    (inner : e.rewriteM (splice eval frame) s = some (.ok e', t))
    (run : (eval frame e').settled t = some (v, u)) (stands : v.syntax? = some node) :
    e.unquoted.rewriteM (splice eval frame) s = some (.ok node, u) := by
  have callee : (Expr.name "unquote").rewriteM (splice eval frame) s =
      some (.ok (.name "unquote"), s) := rfl
  have args : rewriteArgsM (splice eval frame) [e] s = some (.ok [e'], t) := by
    refine (andThen_of_ok inner).trans ?_
    rfl
  exact ((andThen_of_ok callee).trans (andThen_of_ok args)).trans (splice_unquoted run stands)

end

/-- Quoting an unquoted expression evaluates what its own splicing makes of it, and quotes the
syntax of the value. An expression without calls of `unquote` with one argument is evaluated as it
stands, and all frames are left as that evaluation leaves them. -/
theorem quote_unquote (depth frame : Nat) (e : Expr) (s : Store) :
    (∀ e' v node t u, e.rewriteM (splice (Expr.eval depth) frame) s = some (.ok e', t) →
      (Expr.eval depth frame e').settled t = some (v, u) → v.syntax? = some node →
      Expr.eval (depth + 1) frame e.unquoted.quoted s =
        some (.ok (.quotation u.serials node), ⟨u.frames, u.serials + 1⟩)) ∧
    (∀ v node u, e.everywhere .noUnquote →
      (Expr.eval depth frame e).settled s = some (v, u) → v.syntax? = some node →
      Expr.eval (depth + 1) frame e.unquoted.quoted s =
        some (.ok (.quotation u.serials node), ⟨u.frames, u.serials + 1⟩)) := by
  have staged {e' v node t u} (inner : e.rewriteM (splice (Expr.eval depth) frame) s =
      some (.ok e', t)) (run : (Expr.eval depth frame e').settled t = some (v, u))
      (stands : v.syntax? = some node) :
      Expr.eval (depth + 1) frame e.unquoted.quoted s =
        some (.ok (.quotation u.serials node), ⟨u.frames, u.serials + 1⟩) := by
    exact (andThen_of_ok (rewriteM_unquoted inner run stands)).trans rfl
  refine ⟨fun e' v node t u => staged, fun v node u free run stands => ?_⟩
  exact staged (Expr.rewriteM_eq_self (fun _ => splice_eq_self) e free) run stands

/-- A function that adds `unquote(1 + 1)` to its argument, and a function that quotes the name of
its argument: both called. -/
theorem quote_unquote_calls :
    Expr.eval 5 0 (Expr.quoted (Expr.unquoted (.call (.routine .function ["y"]
        [.expr (.binary (.name "y") .add (Expr.unquoted (.binary (.int 1) .add (.int 1))))])
        [.int 3]))) .initial =
      some (.ok (.quotation 1 (.int 5)), ⟨#[⟨[], none⟩, ⟨[("y", .int 3)], some 0⟩], 2⟩) ∧
    Expr.eval 5 0 (Expr.quoted (Expr.unquoted (.call (.routine .function ["y"]
        [.expr (Expr.quoted (.name "y"))]) [.int 3]))) .initial =
      some (.ok (.quotation 2 (.name "y")), ⟨#[⟨[], none⟩, ⟨[("y", .int 3)], some 0⟩], 3⟩) := by
  refine ⟨(quote_unquote 4 0 _ _).1 (.call (.routine .function ["y"]
    [.expr (.binary (.name "y") .add (.int 2))]) [.int 3]) (.int 5) _ .initial
    ⟨#[⟨[], none⟩, ⟨[("y", .int 3)], some 0⟩], 1⟩ ?_ ?_ rfl,
    (quote_unquote 4 0 _ _).2 (.quotation 1 (.name "y")) _
      ⟨#[⟨[], none⟩, ⟨[("y", .int 3)], some 0⟩], 2⟩ ?_ ?_ rfl⟩ <;> cbv

/-- A call of a function that quotes its argument, unquoted, and one. -/
def quotingCall : Expr :=
  .call (.routine .function ["x"] [.expr (Expr.quoted
    (.binary (Expr.unquoted (.name "x")) .add (.int 1)))]) [Expr.quoted (.int 2)]

/-- The function's own `unquote` is met where `x` is unbound, so quoting the unquoted call faults at
any depth that suffices, while the call itself gives the syntax `2 + 1`. -/
theorem quote_unquote_staged :
    ¬ ∀ (depth frame : Nat) (e : Expr) (s u : Store) (v : Value) (node : Expr),
      (Expr.eval depth frame e).settled s = some (v, u) → v.syntax? = some node →
      ∃ more serial t, (Expr.eval more frame e.unquoted.quoted).settled s =
        some (.quotation serial node, t) ∧
        ∀ i, i < s.frames.size → t.frames[i]? = u.frames[i]? := by
  intro claim
  have run : (Expr.eval 4 0 quotingCall).settled .initial =
      some (.quotation 2 (.binary (.int 2) .add (.int 1)),
        ⟨#[⟨[], none⟩, ⟨[("x", .quotation 1 (.int 2))], some 0⟩], 3⟩) := by cbv
  obtain ⟨more, serial, t, other, _⟩ := claim 4 0 quotingCall _ _ _ _ run rfl
  rcases more with _ | _ | depth
  · cases other
  · cases other
  · have fault : (Expr.eval (depth + 2) 0 quotingCall.unquoted.quoted).settled .initial =
        some (.fault (.unbound "x"), .initial) := by cbv
    cases fault.symm.trans other

end Quasiquote
