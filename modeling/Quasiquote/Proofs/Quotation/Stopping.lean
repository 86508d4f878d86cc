import Quasiquote.Proofs.Evaluation.Outcome
import Quasiquote.Proofs.Quotation.Unquoting
import Quasiquote.Proofs.Syntax.Context

/-!
# Where a quotation stops

* `Context.Walked`: a rewrite of a context comes to the hole, since it got through everything that
  stands before. `Context.Walked.stops`: what stops it in the hole stops it altogether.
* `quote_stops`: a quotation stops at the first unquoted expression that comes to a signal. A fault
  goes on from there as it is. A `return` does not: it has no syntax, which is a fault of its own.
* `quote_stops_return`: so a `return` does not leave the function around a quotation.
-/

namespace Quasiquote

section
variable {ε : Type} (rule : Expr → ExceptT ε Eval Expr)

/-- A rewrite of a context comes to the hole, and to this store there: it gives something for all
that it meets before, which is what stands to the left. -/
inductive Context.Walked : Context → Store → Store → Prop
  | hole {s} : Walked .hole s s
  | operand {op inner s t} (rest : Walked inner s t) : Walked (.operand op inner) s t
  | left {inner op right s t} (rest : Walked inner s t) : Walked (.left inner op right) s t
  | right {left left' op inner s t u} (first : left.rewriteM rule s = some (.ok left', t))
      (rest : Walked inner t u) : Walked (.right left op inner) s u
  | test {inner consequence alternative s t} (rest : Walked inner s t) :
      Walked (.test inner consequence alternative) s t
  | consequence {test test' before before' head inner after alternative s t u w}
      (tested : test.rewriteM rule s = some (.ok test', t))
      (passed : rewriteBlockM rule before t = some (.ok before', u)) (rest : Walked inner u w) :
      Walked (.consequence test before head inner after alternative) s w
  | alternative {test test' consequence consequence' before before' head inner after s t u w x}
      (tested : test.rewriteM rule s = some (.ok test', t))
      (first : rewriteBlockM rule consequence t = some (.ok consequence', u))
      (passed : rewriteBlockM rule before u = some (.ok before', w)) (rest : Walked inner w x) :
      Walked (.alternative test consequence before head inner after) s x
  | body {role params before before' head inner after s t u}
      (passed : rewriteBlockM rule before s = some (.ok before', t)) (rest : Walked inner t u) :
      Walked (.body role params before head inner after) s u
  | callee {inner args s t} (rest : Walked inner s t) : Walked (.callee inner args) s t
  | arg {callee callee' before before' inner after s t u w}
      (called : callee.rewriteM rule s = some (.ok callee', t))
      (passed : rewriteArgsM rule before t = some (.ok before', u)) (rest : Walked inner u w) :
      Walked (.arg callee before inner after) s w

theorem rewriteBlockM_append (first rest : Block) :
    rewriteBlockM rule (first ++ rest) =
      (do
        let first ← rewriteBlockM rule first
        let rest ← rewriteBlockM rule rest
        pure (first ++ rest)) := by
  induction first with
  | nil => simp [rewriteBlockM]
  | cons s first ih => simp [rewriteBlockM, ih]

theorem rewriteArgsM_append (first rest : List Expr) :
    rewriteArgsM rule (first ++ rest) =
      (do
        let first ← rewriteArgsM rule first
        let rest ← rewriteArgsM rule rest
        pure (first ++ rest)) := by
  induction first with
  | nil => simp [rewriteArgsM]
  | cons x first ih => simp [rewriteArgsM, ih]

end

open Eval

section
variable {ε : Type} {rule : Expr → ExceptT ε Eval Expr} {s t u : Store} {error : ε} {e : Expr}

theorem Head.rewriteM_of_error {head : Head} (stop : e.rewriteM rule s = some (.error error, t)) :
    (head.complete e).rewriteM rule s = some (.error error, t) := by
  cases head <;> exact andThen_of_error stop

theorem rewriteBlockM_of_error {before before' after : Block} {head : Head}
    (passed : rewriteBlockM rule before s = some (.ok before', t))
    (stop : e.rewriteM rule t = some (.error error, u)) :
    rewriteBlockM rule (before ++ head.complete e :: after) s = some (.error error, u) := by
  rw [rewriteBlockM_append]
  refine (andThen_of_ok passed).trans (andThen_of_error ?_)
  exact andThen_of_error (Head.rewriteM_of_error stop)

theorem rewriteArgsM_of_error {before before' after : List Expr}
    (passed : rewriteArgsM rule before s = some (.ok before', t))
    (stop : e.rewriteM rule t = some (.error error, u)) :
    rewriteArgsM rule (before ++ e :: after) s = some (.error error, u) := by
  rw [rewriteArgsM_append]
  refine (andThen_of_ok passed).trans (andThen_of_error ?_)
  exact andThen_of_error stop

/-- A rewrite ends with the first error that the rule gives. -/
theorem Context.Walked.stops {C : Context} (walked : C.Walked rule s t)
    (stop : e.rewriteM rule t = some (.error error, u)) :
    (C.fill e).rewriteM rule s = some (.error error, u) := by
  induction walked with
  | hole => exact stop
  | operand _ ih => exact andThen_of_error (ih stop)
  | left _ ih => exact andThen_of_error (ih stop)
  | right first _ ih => exact (andThen_of_ok first).trans (andThen_of_error (ih stop))
  | test _ ih => exact andThen_of_error (ih stop)
  | consequence tested passed _ ih =>
    refine (andThen_of_ok tested).trans (andThen_of_error ?_)
    exact rewriteBlockM_of_error passed (ih stop)
  | alternative tested first passed _ ih =>
    refine (andThen_of_ok tested).trans ((andThen_of_ok first).trans (andThen_of_error ?_))
    exact andThen_of_error (rewriteBlockM_of_error passed (ih stop))
  | body passed _ ih => exact andThen_of_error (rewriteBlockM_of_error passed (ih stop))
  | callee _ ih => exact andThen_of_error (ih stop)
  | arg called passed _ ih =>
    refine (andThen_of_ok called).trans (andThen_of_error ?_)
    exact rewriteArgsM_of_error passed (ih stop)

end

/-! ## Unquoted signals -/

section
variable {eval : Evaluator} {frame : Nat} {arg e : Expr} {v : Value} {s t u : Store}

theorem splice_of_none (run : (eval frame e).settled s = some (v, t)) (bare : v.syntax? = none) :
    splice eval frame e.unquoted s = some (.error v.unspliced, t) := by
  refine (andThen_of_ok (lift_of_some run)).trans ?_
  unfold Value.spliced
  rw [bare]
  rfl

/-- An unquoted expression stops a rewrite if it comes to a value without a syntax. -/
theorem rewriteM_unquoted_of_none (inner : arg.rewriteM (splice eval frame) s = some (.ok e, t))
    (run : (eval frame e).settled t = some (v, u)) (bare : v.syntax? = none) :
    arg.unquoted.rewriteM (splice eval frame) s = some (.error v.unspliced, u) := by
  have callee : (Expr.name "unquote").rewriteM (splice eval frame) s =
      some (.ok (.name "unquote"), s) := rfl
  have args : rewriteArgsM (splice eval frame) [arg] s = some (.ok [e], t) :=
    (andThen_of_ok inner).trans rfl
  exact ((andThen_of_ok callee).trans (andThen_of_ok args)).trans (splice_of_none run bare)

theorem quoteWith_stops {C : Context} (walked : C.Walked (splice eval frame) s t)
    (inner : arg.rewriteM (splice eval frame) t = some (.ok e, u)) {w : Store}
    (run : (eval frame e).settled u = some (v, w)) (bare : v.syntax? = none) :
    (C.fill arg.unquoted).quoteWith eval frame s = some (.error v.unspliced, w) := by
  have stop := rewriteM_unquoted_of_none inner run bare
  exact andThen_of_error (walked.stops stop)

end

/-- A quotation stops where an unquoted expression comes to a signal, once all that stands before it
is spliced, and the store is left as that expression left it. A fault goes on as it is. A `return`
does not go on: it is a fault that it has no syntax. So whatever is quoted, no `return` comes out of
it. -/
theorem quote_stops (depth frame : Nat) :
    (∀ C (arg e : Expr) s t u w, Context.Walked (splice (Expr.eval depth) frame) C s t →
      arg.rewriteM (splice (Expr.eval depth) frame) t = some (.ok e, u) →
      (∀ cause, (Expr.eval depth frame e).settled u = some (.fault cause, w) →
        Expr.quote depth frame (C.fill arg.unquoted) s = some (.error (.fault cause), w)) ∧
      ∀ value, (Expr.eval depth frame e).settled u = some (.returned value, w) →
        Expr.quote depth frame (C.fill arg.unquoted) s =
          some (.error (.fault (.noSyntax .returned)), w)) ∧
    ∀ node s v t, (Expr.quote depth frame node).settled s = some (v, t) → v.kind ≠ .returned := by
  constructor
  · intro C arg e s t u w walked inner
    constructor
    · intro cause run
      exact quoteWith_stops walked inner run rfl
    · intro value run
      exact quoteWith_stops walked inner run rfl
  · intro node s v t run
    obtain given | given := ((Expr.quoteWith_gives _ frame node s).settled v t run).2
    · simp [given]
    · simp [given]

/-- The expression `if (true) { return 1 }`. -/
def returningBranch : Expr := .cond (.bool true) [.ret (.int 1)] none

/-- Quoting `fn(x) { unquote(2); g(unquote(if (true) { return 1 }), unquote(y)) }` stops at the
`return`, where an unbound name would stop it as well. -/
theorem quote_stops_inside :
    (Expr.eval 2 0 returningBranch).settled .initial = some (.returned (.int 1), .initial) ∧
    Expr.quote 2 0 (.routine .function ["x"] [.expr (Expr.int 2).unquoted,
      .expr (.call (.name "g") [returningBranch.unquoted, (Expr.name "y").unquoted])]) .initial =
      some (.error (.fault (.noSyntax .returned)), .initial) ∧
    (Value.fault (.noSyntax .returned)).text =
      "ERROR: cannot unquote RETURN_VALUE into syntax" := by
  have run : (Expr.eval 2 0 returningBranch).settled .initial =
      some (.returned (.int 1), .initial) := by cbv
  have before : rewriteBlockM (splice (Expr.eval 2) 0) [.expr (Expr.int 2).unquoted] .initial =
      some (.ok [.expr (.int 2)], .initial) := by cbv
  have callee : (Expr.name "g").rewriteM (splice (Expr.eval 2) 0) .initial =
      some (.ok (.name "g"), .initial) := rfl
  have walked : (Context.body .function ["x"] [.expr (Expr.int 2).unquoted] .expr
      (.arg (.name "g") [] .hole [(Expr.name "y").unquoted]) []).Walked
      (splice (Expr.eval 2) 0) .initial .initial :=
    .body before (.arg callee rfl .hole)
  have inner : returningBranch.rewriteM (splice (Expr.eval 2) 0) .initial =
      some (.ok returningBranch, .initial) := by cbv
  exact ⟨run, ((quote_stops 2 0).1 _ _ _ _ _ _ _ walked inner).2 _ run, by decide⟩

/-- A `return` that is unquoted does not come out of the quotation. -/
theorem quote_stops_return :
    ¬ ∀ (depth frame : Nat) (C : Context) (arg e : Expr) (s t u w : Store) (value : Value),
      Context.Walked (splice (Expr.eval depth) frame) C s t →
      arg.rewriteM (splice (Expr.eval depth) frame) t = some (.ok e, u) →
      (Expr.eval depth frame e).settled u = some (.returned value, w) →
      ∃ more, (Expr.quote more frame (C.fill arg.unquoted)).settled s =
        some (.returned value, w) := by
  intro claim
  have inner : returningBranch.rewriteM (splice (Expr.eval 2) 0) .initial =
      some (.ok returningBranch, .initial) := by cbv
  have run : (Expr.eval 2 0 returningBranch).settled .initial =
      some (.returned (.int 1), .initial) := by cbv
  obtain ⟨more, given⟩ := claim 2 0 .hole _ _ _ _ _ _ _ .hole inner run
  obtain kind | kind := ((Expr.quoteWith_gives _ 0 _ _).settled _ _ given).2
  · cases kind
  · cases kind

end Quasiquote
