import Quasiquote.Proofs.Evaluation.Outcome
import Quasiquote.Proofs.Syntax.Context

/-!
# Signals leave contexts

* `Context.Reaches`: evaluation comes to the hole, since everything before it gave no signal.
* `signal_leaves_context`: what gives a signal in the hole gives it in the whole context, and ends
  it there.
-/

namespace Quasiquote

namespace Context

/-- Evaluation of the context, filled with this expression, comes to the hole, and to this store
there: what it comes to before gives no signals, the hole's branch is taken, and the hole is neither
in a quotation nor in the body of a routine. -/
inductive Reaches (frame : Nat) (e : Expr) : Context → Store → Store → Prop
  | hole {s} : Reaches frame e .hole s s
  | operand {op inner s t} (rest : Reaches frame e inner s t) :
      Reaches frame e (.operand op inner) s t
  | left {inner op right s t} (rest : Reaches frame e inner s t) :
      Reaches frame e (.left inner op right) s t
  | right {left op inner s t u v} (first : left.Evaluates frame s v t)
      (quiet : v.isSignal = false) (rest : Reaches frame e inner t u) :
      Reaches frame e (.right left op inner) s u
  | test {inner consequence alternative s t} (rest : Reaches frame e inner s t) :
      Reaches frame e (.test inner consequence alternative) s t
  | consequence {test before head inner after alternative s t u w v}
      (tested : test.Evaluates frame s v t) (quiet : v.isSignal = false) (taken : v.isTruthy)
      (passes : Block.Passes frame before t u) (rest : Reaches frame e inner u w) :
      Reaches frame e (.consequence test before head inner after alternative) s w
  | alternative {test consequence before head inner after s t u w v}
      (tested : test.Evaluates frame s v t) (quiet : v.isSignal = false)
      (taken : v.isTruthy = false) (passes : Block.Passes frame before t u)
      (rest : Reaches frame e inner u w) :
      Reaches frame e (.alternative test consequence before head inner after) s w
  | callee {inner args s t} (other : (inner.fill e).name? ≠ some "quote")
      (rest : Reaches frame e inner s t) : Reaches frame e (.callee inner args) s t
  | arg {callee before inner after s t u w f} (other : callee.name? ≠ some "quote")
      (called : callee.Evaluates frame s f t) (quiet : f.isSignal = false)
      (passes : ArgsPass frame before t u) (rest : Reaches frame e inner u w) :
      Reaches frame e (.arg callee before inner after) s w

/-- Whether evaluation comes to the hole does not hang on what is behind it. -/
theorem Reaches.sameBefore {frame : Nat} {e : Expr} {C D : Context} {s t : Store}
    (h : C.Reaches frame e s t) (same : C.SameBefore D) : D.Reaches frame e s t := by
  induction h generalizing D with
  | hole => cases same; exact .hole
  | operand _ ih =>
    cases same with
    | operand _ _ rest => exact .operand (ih rest)
  | left _ ih =>
    cases same with
    | left _ _ _ _ rest => exact .left (ih rest)
  | right first quiet _ ih =>
    cases same with
    | right _ _ rest => exact .right first quiet (ih rest)
  | test _ ih =>
    cases same with
    | test _ _ _ _ rest => exact .test (ih rest)
  | consequence tested quiet taken passes _ ih =>
    cases same with
    | consequence _ _ _ _ _ _ rest => exact .consequence tested quiet taken passes (ih rest)
  | alternative tested quiet taken passes _ ih =>
    cases same with
    | alternative _ _ _ _ _ _ rest => exact .alternative tested quiet taken passes (ih rest)
  | callee other _ ih =>
    cases same with
    | callee _ _ rest => exact .callee (rest.name?_fill e ▸ other) (ih rest)
  | arg other called quiet passes _ ih =>
    cases same with
    | arg _ _ rest => exact .arg other called quiet passes (ih rest)

end Context

open Eval Filter

/-! ## Signals in lists -/

theorem Head.evalWith_of_error {eval : Evaluator} {frame : Nat} {head : Head} {e : Expr}
    {signal : Value} {s t : Store} (run : eval frame e s = some (.error signal, t)) :
    (head.complete e).evalWith eval frame s = some (.error signal, t) := by
  cases head <;> exact andThen_of_error run

/-- A block ends with the first signal that one of its statements gives. -/
theorem Block.valueWith_of_error {eval : Evaluator} {frame : Nat} {before after : Block}
    {head : Head} {e : Expr} {given : Option Value} {signal : Value} {s t u : Store}
    (passed : Block.evalFrom eval frame none before s = some (.ok given, t))
    (run : eval frame e t = some (.error signal, u)) :
    Block.valueWith eval frame (before ++ head.complete e :: after) s =
      some (.error signal, u) := by
  refine andThen_of_error ?_
  rw [Block.evalWith, Block.evalFrom_append]
  exact (andThen_of_ok passed).trans (andThen_of_error (Head.evalWith_of_error run))

/-- Arguments end with the first signal that one of them gives. -/
theorem evalEach_of_error {eval : Evaluator} {frame : Nat} {before after : List Expr}
    {e : Expr} {vs : List Value} {signal : Value} {s t u : Store}
    (passed : evalEach eval frame before s = some (.ok vs, t))
    (run : eval frame e t = some (.error signal, u)) :
    evalEach eval frame (before ++ e :: after) s = some (.error signal, u) := by
  rw [evalEach_append]
  exact (andThen_of_ok passed).trans (andThen_of_error (andThen_of_error run))

/-! ## Signals in contexts -/

theorem Context.Reaches.evaluates {frame : Nat} {C : Context} {e : Expr} {s t u : Store}
    {signal : Value} (reached : C.Reaches frame e s t) (given : e.Evaluates frame t signal u)
    (isSignal : signal.isSignal) : (C.fill e).Evaluates frame s signal u := by
  have out := Value.outcome_of_signal isSignal
  -- What is evaluated inside of a context is evaluated one level further in than the context.
  have lift {x : Expr} {s : Store}
      (run : ∃ depth, x.evalWith (Expr.eval depth) frame s = some (.error signal, u)) :
      x.Evaluates frame s signal u := by
    obtain ⟨depth, run⟩ := run
    have whole : Expr.eval (depth + 1) frame x s = some (signal.outcome, u) := out ▸ run
    exact .of_run whole
  have raised {x : Expr} {s : Store} (h : x.Evaluates frame s signal u) :
      ∀ᶠ depth in atTop, Expr.eval depth frame x s = some (.error signal, u) := out ▸ h.eventually
  induction reached with
  | hole => exact given
  | operand _ ih | left _ ih | test _ ih =>
    obtain ⟨depth, run⟩ := (raised (ih given)).exists
    exact lift ⟨depth, andThen_of_error run⟩
  | right first quiet _ ih =>
    obtain ⟨depth, before, run⟩ := (first.eventually.and (raised (ih given))).exists
    rw [Value.outcome_of_quiet quiet] at before
    exact lift ⟨depth, (andThen_of_ok before).trans (andThen_of_error run)⟩
  | consequence tested quiet taken passes _ ih =>
    obtain ⟨depth, test, before, run⟩ :=
      (tested.eventually.and (passes.eventually.and (raised (ih given)))).exists
    rw [Value.outcome_of_quiet quiet] at test
    obtain ⟨_, before⟩ := before none
    refine lift ⟨depth, (andThen_of_ok test).trans ?_⟩
    rw [if_pos taken]
    exact Block.valueWith_of_error before run
  | alternative tested quiet taken passes _ ih =>
    obtain ⟨depth, test, before, run⟩ :=
      (tested.eventually.and (passes.eventually.and (raised (ih given)))).exists
    rw [Value.outcome_of_quiet quiet] at test
    obtain ⟨_, before⟩ := before none
    refine lift ⟨depth, (andThen_of_ok test).trans ?_⟩
    rw [if_neg (by simp [taken])]
    exact Block.valueWith_of_error before run
  | callee other _ ih =>
    obtain ⟨depth, run⟩ := (raised (ih given)).exists
    refine lift ⟨depth, ?_⟩
    rw [Context.fill, Expr.evalWith, if_neg other]
    exact andThen_of_error run
  | arg other called quiet passes _ ih =>
    obtain ⟨depth, callee, ⟨vs, before⟩, run⟩ :=
      (called.eventually.and (passes.eventually.and (raised (ih given)))).exists
    rw [Value.outcome_of_quiet quiet] at callee
    refine lift ⟨depth, ?_⟩
    rw [Context.fill, Expr.evalWith, if_neg other]
    exact (andThen_of_ok callee).trans (andThen_of_error (evalEach_of_error before run))

/-- A signal passes through every context. If evaluation comes to the hole of a context, and the
expression in the hole gives a `return` or a fault there, then that very signal is what the whole
context comes to, and the store is left as the hole left it. Nothing behind the hole is evaluated
and nothing is done with the signal, since any other context does the same that is the same up to
the hole. -/
theorem signal_leaves_context {frame : Nat} {C : Context} {e : Expr} {s t u : Store}
    {signal : Value} (reached : C.Reaches frame e s t) (given : e.Evaluates frame t signal u)
    (isSignal : signal.isSignal) :
    ∀ D, C.SameBefore D → ∀ v w, (D.fill e).Evaluates frame s v w ↔ v = signal ∧ w = u := by
  intro D same v w
  have whole := (reached.sameBefore same).evaluates given isSignal
  constructor
  · intro other
    exact other.unique whole
  · rintro ⟨rfl, rfl⟩
    exact whole

/-- The expression `1 + if (true) { let a = 2; let b = fn() { }(a, .., later) }`, for instance, with
a hole as the second argument. -/
def nestedContext (op : BinaryOp) (head : Head) (later : List Expr) (after : Block) : Context :=
  .right (.int 1) op (.consequence (.bool true) [.bind "a" (.int 2)] head
    (.arg (.routine .function [] []) [.name "a"] .hole later) after none)

/-- The expression `if (a) { return a }`. -/
def leaving : Expr := .cond (.name "a") [.ret (.name "a")] none

/-- What is left when a `return` leaves the context: the second binding is not made. -/
def leavingStore : Store := ⟨#[⟨[("a", .int 2)], none⟩], 1⟩

/-- A `return` among the arguments of a call in a binding in a branch in an operand leaves all of
them, also when the binding is a `return`, the operator another one and nothing stands behind. -/
theorem signal_leaves_context_nested :
    (nestedContext .add (.bind "b") [.name "later"] [.expr (.name "b")]).Reaches 0 leaving .initial
      leavingStore ∧
    leaving.Evaluates 0 leavingStore (.returned (.int 2)) leavingStore ∧
    (∀ v w, ((nestedContext .add (.bind "b") [.name "later"] [.expr (.name "b")]).fill
      leaving).Evaluates 0 .initial v w ↔ v = .returned (.int 2) ∧ w = leavingStore) ∧
    ∀ v w, ((nestedContext .lt .ret [] []).fill leaving).Evaluates 0 .initial v w ↔
      v = .returned (.int 2) ∧ w = leavingStore := by
  let bound : Store := Store.initial.insert 0 "a" (.int 2)
  have binding : Stmt.Evaluates 0 (.bind "a" (.int 2)) .initial none bound := ⟨1, rfl⟩
  have callee : (Expr.routine .function [] []).Evaluates 0 bound
      (.routine .function 0 ⟨[], [], 0⟩) leavingStore := ⟨1, rfl⟩
  have first : (Expr.name "a").Evaluates 0 leavingStore (.int 2) leavingStore := ⟨1, by cbv⟩
  have reached : (nestedContext .add (.bind "b") [.name "later"] [.expr (.name "b")]).Reaches 0
      leaving .initial leavingStore :=
    .right ⟨1, rfl⟩ rfl <| .consequence ⟨1, rfl⟩ rfl rfl (.cons binding (by simp) .nil) <|
      .arg (by simp [Expr.name?]) callee rfl (.cons first rfl .nil) .hole
  have given : leaving.Evaluates 0 leavingStore (.returned (.int 2)) leavingStore := ⟨2, by cbv⟩
  have same : (nestedContext .add (.bind "b") [.name "later"] [.expr (.name "b")]).SameBefore
      (nestedContext .lt .ret [] []) :=
    .right _ _ <| .consequence _ _ _ _ _ _ <| .arg _ _ .hole
  exact ⟨reached, given, signal_leaves_context reached given rfl _ (.refl _),
    signal_leaves_context reached given rfl _ same⟩

end Quasiquote
