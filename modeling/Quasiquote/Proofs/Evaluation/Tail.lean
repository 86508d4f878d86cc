import Quasiquote.Expansion
import Quasiquote.Proofs.Evaluation.Outcome

/-!
# Returns in tail position

A `return` ends the list of statements that it stands in, and where a program, the body of a
function or the body of a macro ends anyway, its expression does as well.

* `Block.trim`: a block without what stands behind a `return`, in whichever of its lists.
* `Block.straight`: a block with every `return` in tail position made an expression.
* `Signalling.Lands x y`: what `x` returns early, `y` comes to in the end, and nothing else differs.
  Programs, calls and macros all take either for the other.
* `tail_return_redundant`: so they do not tell a block from the trimmed and straightened one.
-/

namespace Quasiquote

/-! ## Behind a return -/

mutual

/-- An expression without what stands behind a `return` in the branches that its evaluation may
run. Routines and quoted syntax are values and stay as they are. -/
def Expr.trim : Expr → Expr
  | .name id => .name id
  | .int n => .int n
  | .bool b => .bool b
  | .unary op operand => .unary op operand.trim
  | .binary left op right => .binary left.trim op right.trim
  | .cond test consequence alternative =>
    .cond test.trim (Block.trim consequence) (trimAlternative alternative)
  | .routine role params body => .routine role params body
  | .call callee args =>
    if callee.name? = some "quote" then .call callee args else .call callee.trim (trimArgs args)

/-- A block without what stands behind a `return` in it or in its branches. -/
def Block.trim : List Stmt → List Stmt
  | [] => []
  | .bind name value :: rest => .bind name value.trim :: Block.trim rest
  | .expr value :: rest => .expr value.trim :: Block.trim rest
  | .ret value :: _ => [.ret value.trim]

def trimAlternative : Option (List Stmt) → Option (List Stmt)
  | none => none
  | some block => some (Block.trim block)

def trimArgs : List Expr → List Expr
  | [] => []
  | x :: rest => x.trim :: trimArgs rest

end

@[simp]
theorem Expr.name?_trim (e : Expr) : e.trim.name? = e.name? := by
  cases e with
  | call callee args =>
    rw [Expr.trim]
    split <;> rfl
  | _ => rfl

/-- A `return` ends its list. -/
theorem Block.evalFrom_ret (eval : Evaluator) (frame : Nat) (given : Option Value) (value : Expr)
    (rest : Block) :
    Block.evalFrom eval frame given (.ret value :: rest) =
      (do
        let v ← eval frame value
        throw (.returned v)) := by
  simp only [Block.evalFrom, Stmt.evalWith, bind_assoc]
  rfl

/-- An expression at the end of a list is what the list gives. -/
theorem Block.evalFrom_expr (eval : Evaluator) (frame : Nat) (given : Option Value)
    (value : Expr) :
    Block.evalFrom eval frame given [.expr value] =
      (do
        let v ← eval frame value
        pure (some v)) := by
  simp only [Block.evalFrom, Stmt.evalWith, bind_pure]

section
variable {eval : Evaluator} (trims : ∀ frame e, eval frame e.trim = eval frame e) (frame : Nat)
include trims

theorem Block.evalFrom_trim (given : Option Value) (block : Block) :
    Block.evalFrom eval frame given (Block.trim block) = Block.evalFrom eval frame given block := by
  induction block generalizing given with
  | nil => rfl
  | cons s rest ih =>
    cases s with
    | bind name value | expr value =>
      simp only [Block.trim, Block.evalFrom, Stmt.evalWith, trims, ih]
    | ret value => rw [Block.trim, Block.evalFrom_ret, Block.evalFrom_ret, trims]

theorem Block.valueWith_trim (block : Block) :
    Block.valueWith eval frame (Block.trim block) = Block.valueWith eval frame block := by
  simp only [Block.valueWith, Block.evalWith, Block.evalFrom_trim trims]

theorem evalEach_trim (args : List Expr) :
    evalEach eval frame (trimArgs args) = evalEach eval frame args := by
  induction args with
  | nil => rfl
  | cons x rest ih => simp only [trimArgs, evalEach, trims, ih]

theorem Expr.evalWith_trim (e : Expr) : e.trim.evalWith eval frame = e.evalWith eval frame := by
  cases e with
  | name | int | bool | routine => rfl
  | unary | binary => simp only [Expr.trim, Expr.evalWith, trims]
  | cond test consequence alternative =>
    cases alternative <;>
      simp only [Expr.trim, trimAlternative, Expr.evalWith, trims, Block.valueWith_trim trims]
  | call callee args =>
    rw [Expr.trim]
    split
    · rfl
    · next other =>
      simp only [Expr.evalWith, Expr.name?_trim, if_neg other, trims, evalEach_trim trims]

end

/-- What stands behind a `return` makes no difference to evaluation. -/
theorem Expr.eval_trim (depth frame : Nat) (e : Expr) :
    Expr.eval depth frame e.trim = Expr.eval depth frame e := by
  induction depth generalizing frame e with
  | zero => rfl
  | succ depth ih => exact Expr.evalWith_trim ih frame e

theorem Block.eval_trim (depth frame : Nat) (block : Block) :
    Block.eval depth frame (Block.trim block) = Block.eval depth frame block :=
  Block.evalFrom_trim (Expr.eval_trim depth) frame none block

/-! ## In tail position -/

mutual

/-- An expression with the returns at the ends of its branches made expressions, if it is a
condition. -/
def Expr.straight : Expr → Expr
  | .cond test consequence alternative =>
    .cond test (Block.straight consequence) (straightAlternative alternative)
  | e => e

/-- A block with every `return` in tail position made an expression, and without what stands behind
one: the end of the block is in tail position, and so are the ends of the branches if it ends with a
condition. -/
def Block.straight : List Stmt → List Stmt
  | [] => []
  | .ret value :: _ => [.expr value]
  | [.expr value] => [.expr value.straight]
  | s :: rest => s :: Block.straight rest

def straightAlternative : Option (List Stmt) → Option (List Stmt)
  | none => none
  | some block => some (Block.straight block)

end

theorem Block.straight_bind (name : String) (value : Expr) (rest : Block) :
    Block.straight (.bind name value :: rest) = .bind name value :: Block.straight rest := by
  cases rest <;> rfl

/-- Both computations do the same from a store, but for what the first returns early: the second
comes to it in the end. -/
def Signalling.Lands {α : Type} (wrap : Value → α) (x y : Signalling α) (s : Store) : Prop :=
  x s = y s ∨ ∃ v t, v.isSignal = false ∧ x s = some (.error (.returned v), t) ∧
    y s = some (.ok (wrap v), t)

open Eval

namespace Signalling.Lands

variable {α β : Type} {wrap : Value → α} {s : Store}

theorem refl {x : Signalling α} : x.Lands wrap x s := .inl rfl

/-- Nothing differs before the last step. -/
theorem afterSame {x : Signalling β} {f g : β → Signalling α}
    (h : ∀ b t, x s = some (.ok b, t) → (f b).Lands wrap (g b) t) :
    (x >>= f).Lands wrap (x >>= g) s := by
  unfold Lands
  rw [Signalling.bind_apply, Signalling.bind_apply]
  cases run : x s with
  | none => exact .inl rfl
  | some result =>
    obtain ⟨outcome, t⟩ := result
    cases outcome with
    | error signal => exact .inl rfl
    | ok b => exact h b t run

theorem map (φ : α → β) {x y : Signalling α} (h : x.Lands wrap y s) :
    (x >>= fun a => pure (φ a)).Lands (φ ∘ wrap) (y >>= fun a => pure (φ a)) s := by
  rcases h with same | ⟨v, t, quiet, early, late⟩
  · exact .inl (by simp only [Signalling.bind_apply, same])
  · exact .inr ⟨v, t, quiet, andThen_of_error early, (andThen_of_ok late).trans rfl⟩

/-- A `return` comes to what its expression comes to. -/
theorem ofReturn {x : Signalling Value} (parted : x.run.Gives Store.Whatever Value.Parted s) :
    (x >>= fun v => throw (.returned v)).Lands wrap (x >>= fun v => pure (wrap v)) s := by
  refine afterSame fun v t run => ?_
  have quiet : v.isSignal = false := (parted _ _ run).2
  exact .inr ⟨v, t, quiet, rfl, rfl⟩

end Signalling.Lands

theorem Block.valueWith_of_lands {eval : Evaluator} {frame : Nat} {block other : Block} {s : Store}
    (h : (Block.evalWith eval frame block).Lands some (Block.evalWith eval frame other) s) :
    (Block.valueWith eval frame block).Lands id (Block.valueWith eval frame other) s :=
  h.map fun given : Option Value => given.getD Value.null

mutual

/-- The ends of a condition's branches are where the condition ends. -/
theorem Expr.eval_straight (depth frame : Nat) (s : Store) :
    ∀ e : Expr, (Expr.eval depth frame e).Lands id (Expr.eval depth frame e.straight) s
  | .cond test consequence alternative => by
    cases depth with
    | zero => exact .refl
    | succ depth =>
      refine .afterSame fun v t _ => ?_
      split
      · exact Block.valueWith_of_lands (Block.evalFrom_straight depth frame none t consequence)
      · exact valueWith_straightAlternative depth frame t alternative
  | .name _ | .int _ | .bool _ | .unary _ _ | .binary _ _ _ | .routine _ _ _ | .call _ _ => .refl

theorem Block.evalFrom_straight (depth frame : Nat) (given : Option Value) (s : Store) :
    ∀ block : List Stmt, (Block.evalFrom (Expr.eval depth) frame given block).Lands some
      (Block.evalFrom (Expr.eval depth) frame given (Block.straight block)) s
  | [] => .refl
  | .ret value :: rest => by
    rw [Block.evalFrom_ret, Block.straight, Block.evalFrom_expr]
    exact .ofReturn (Expr.eval_parts depth frame value s)
  | [.expr value] => by
    rw [Block.straight, Block.evalFrom_expr, Block.evalFrom_expr]
    exact (Expr.eval_straight depth frame s value).map some
  | .expr value :: next :: rest =>
    .afterSame fun given t _ => Block.evalFrom_straight depth frame given t (next :: rest)
  | .bind name value :: rest => by
    rw [Block.straight_bind]
    exact .afterSame fun given t _ => Block.evalFrom_straight depth frame given t rest

theorem valueWith_straightAlternative (depth frame : Nat) (s : Store) :
    ∀ alternative : Option (List Stmt),
      (match alternative with
        | some block => Block.valueWith (Expr.eval depth) frame block
        | none => pure .null).Lands id
      (match straightAlternative alternative with
        | some block => Block.valueWith (Expr.eval depth) frame block
        | none => pure .null) s
  | none => .refl
  | some block => by
    exact Block.valueWith_of_lands (Block.evalFrom_straight depth frame none s block)

end

/-- A block returns early what the straightened block comes to in the end. -/
theorem Block.eval_straight (depth frame : Nat) (block : Block) (s : Store) :
    (Block.eval depth frame block).Lands some (Block.eval depth frame (Block.straight block)) s :=
  Block.evalFrom_straight depth frame none s block

/-! ## Where returns end -/

theorem Signalling.catchReturn_apply (x : Signalling Value) (s : Store) :
    x.catchReturn s =
      match x s with
      | some (.error (.returned inner), t) => inner.raise t
      | result => result := by
  change (x.run s).bind _ = match x.run s with
    | some (.error (.returned inner), t) => inner.raise t
    | result => result
  rcases x.run s with _ | ⟨signal | v, t⟩
  · rfl
  · cases signal <;> rfl
  · rfl

theorem Signalling.settled?_apply (x : Signalling (Option Value)) (s : Store) :
    x.settled? s =
      match x s with
      | none => none
      | some (.ok given, t) => some (given, t)
      | some (.error signal, t) => some (some signal, t) := by
  change (x.run s).bind _ = match x.run s with
    | none => none
    | some (.ok given, t) => some (given, t)
    | some (.error signal, t) => some (some signal, t)
  rcases x.run s with _ | ⟨signal | v, t⟩ <;> rfl

/-- A value that is no signal has nothing around it. -/
theorem Value.unwrapped_of_quiet {v : Value} (quiet : v.isSignal = false) : v.unwrapped = v := by
  cases v with
  | returned inner => cases quiet
  | _ => rfl

namespace Signalling.Lands

/-- A call goes on with what its body returned. -/
theorem catchReturn {x y : Signalling Value} (h : ∀ s, x.Lands id y s) :
    x.catchReturn = y.catchReturn := by
  funext s
  rw [catchReturn_apply, catchReturn_apply]
  rcases h s with same | ⟨v, t, quiet, early, late⟩
  · rw [same]
  · simp only [early, late, Value.raise, quiet]
    rfl

/-- Whoever takes the wrapping off cannot tell what was returned from what was given. -/
theorem settled? {α : Type} {x y : Signalling (Option Value)} (h : ∀ s, x.Lands some y s)
    {next : Option Value → Eval α}
    (unwraps : ∀ v, v.isSignal = false → next (some (.returned v)) = next (some v)) :
    (x.settled? >>= next) = (y.settled? >>= next) := by
  funext s
  rw [Eval.bind_apply, Eval.bind_apply, settled?_apply, settled?_apply]
  rcases h s with same | ⟨v, t, quiet, early, late⟩
  · rw [same]
  · simp only [early, late, unwraps v quiet]

end Signalling.Lands

theorem Eval.run_lift_bind {ε α β : Type} (x : Eval α) (f : α → ExceptT ε Eval β) :
    ((liftM x : ExceptT ε Eval α) >>= f).run = x >>= fun a => (f a).run :=
  ExceptT.run_bind_lift x f

/-! ## Programs, functions and macros -/

/-- Runs the body of a macro for a call of it, and expands the syntax that comes of it. -/
def MacroCall.expand (frame depth : Nat) (call : MacroCall) : ExceptT MacroError Eval Expr :=
  if call.closure.params.length = call.args.length then do
    let given ← call.eval depth
    let node ← ExceptT.mk (pure (call.syntaxOf given))
    node.rewriteM (expandNode frame depth)
  else throw (.arity call.name call.closure.params.length call.args.length)

theorem expandNode_succ (frame depth : Nat) (e : Expr) :
    expandNode frame (depth + 1) e =
      (do
        match (← get).macroCall? frame e with
        | none => pure e
        | some call => call.expand frame depth) := rfl

/-- A macro call gives the same syntax whether its body returns or ends with the value. -/
theorem MacroCall.syntaxOf_returned (call : MacroCall) {v : Value} (quiet : v.isSignal = false) :
    call.syntaxOf (some (.returned v)) = call.syntaxOf (some v) := by
  simp only [MacroCall.syntaxOf, Value.unwrapped_of_quiet quiet]
  rfl

/-- One block in the place of another, as a program, as the body of a function or as the body of a
macro, makes no difference to what comes of it, or whether anything does, or to the store. -/
structure Block.RunsAs (block other : Block) : Prop where
  program : ∀ depth frame, Program.eval depth frame other = Program.eval depth frame block
  function : ∀ depth serial params frame args,
    (Value.routine .function serial ⟨params, other, frame⟩).call depth args =
      (Value.routine .function serial ⟨params, block, frame⟩).call depth args
  transformer : ∀ depth frame name params outer args,
    MacroCall.expand frame depth ⟨name, ⟨params, other, outer⟩, args⟩ =
      MacroCall.expand frame depth ⟨name, ⟨params, block, outer⟩, args⟩

/-- Blocks of which one comes to in the end what the other returns run alike. -/
theorem Block.RunsAs.of_lands {block other : Block}
    (h : ∀ depth frame s,
      (Block.eval depth frame block).Lands some (Block.eval depth frame other) s) :
    Block.RunsAs block other where
  program depth frame := by
    refine (Signalling.Lands.settled? (h depth frame) ?_).symm
    intro v quiet
    simp only [Option.map_some, Value.unwrapped_of_quiet quiet]
    rfl
  function depth serial params frame args := by
    simp only [Value.call, Value.callWith]
    split
    · refine bind_congr fun inner => ?_
      refine (Signalling.Lands.catchReturn fun s => ?_).symm
      exact Block.valueWith_of_lands (h depth inner s)
    · rfl
  transformer depth frame name params outer args := by
    simp only [MacroCall.expand]
    split
    · simp only [MacroCall.eval, liftM_bind, bind_assoc]
      refine bind_congr fun values => bind_congr fun inner => ?_
      refine ExceptT.ext ?_
      rw [run_lift_bind, run_lift_bind]
      refine (Signalling.Lands.settled? (h depth inner) ?_).symm
      intro v quiet
      exact congrArg (fun node => (ExceptT.mk (pure node) >>= _ : ExceptT MacroError Eval Expr).run)
        (MacroCall.syntaxOf_returned ⟨name, ⟨params, block, outer⟩, args⟩ quiet)
    · rfl

/-- A `return` in tail position is redundant and ends its list. What runs a block, as a program, as
the body of a function or as the body of a macro, in whatever frame and with whatever arguments,
cannot tell it from the block with the returns in tail position made expressions and without the
statements behind a `return`, be these left out of the lists in tail position only or of every list
that is run. -/
theorem tail_return_redundant (block : Block) :
    Block.RunsAs block (Block.straight block) ∧
      Block.RunsAs block (Block.straight (Block.trim block)) := by
  refine ⟨.of_lands fun depth frame => ?_, .of_lands fun depth frame => ?_⟩
  · exact Block.eval_straight depth frame block
  · rw [← Block.eval_trim depth frame block]
    exact Block.eval_straight depth frame (Block.trim block)

/-- The block `let b = if (a) { return 1; 2 }; if (b) { return 3 } else { b; return b }`. -/
example :
    Block.straight (Block.trim
      [.bind "b" (.cond (.name "a") [.ret (.int 1), .expr (.int 2)] none),
        .expr (.cond (.name "b") [.ret (.int 3)] (some [.expr (.name "b"), .ret (.name "b")]))]) =
      [.bind "b" (.cond (.name "a") [.ret (.int 1)] none),
        .expr (.cond (.name "b") [.expr (.int 3)]
          (some [.expr (.name "b"), .expr (.name "b")]))] := rfl

end Quasiquote
