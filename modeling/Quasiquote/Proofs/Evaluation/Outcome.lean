import Quasiquote.Proofs.Evaluation.Depth
import Quasiquote.Proofs.Evaluation.Invariant

/-!
# What evaluation comes to

* `Expr.quoteWith_gives`: a quotation gives syntax or a fault, and never a `return`.
* `Expr.eval_parts`: evaluation is cut short by signals only, and none is its result, whatever the
  store binds. So a value tells by itself how it came out (`Expr.settled_eq_some_iff`).
* `Expr.Evaluates`, `Stmt.Evaluates`: the value or signal that evaluation comes to at some depth,
  and the store that it leaves. There is one at most, and every greater depth comes to it too.
* `Block.Passes`, `ArgsPass`: statements and arguments that are evaluated in order without a signal.
-/

namespace Quasiquote

open Eval

/-! ## Signals and results -/

/-- A result that is no signal, or a signal that cut the computation short. -/
abbrev Value.Parted : Except Value Value → Store → Prop :=
  Ended (fun v _ => v.isSignal = false) fun v _ => v.isSignal

/-- Nothing, a value that is no signal, or a signal that cut the computation short. -/
abbrev Value.Parted? : Except Value (Option Value) → Store → Prop :=
  Ended (fun given _ => ∀ v ∈ given, v.isSignal = false) fun v _ => v.isSignal

/-- An evaluator that tells signals from results. -/
def Evaluator.Parts (eval : Evaluator) : Prop :=
  ∀ frame e s, (eval frame e).run.Gives Store.Whatever Value.Parted s

/-! ### Quotations -/

/-- What goes on in place of a value that has no syntax. -/
def Value.unspliced (v : Value) : Value := if v.isFault then v else .fault (.noSyntax v.kind)

theorem Value.unspliced_kind (v : Value) : v.unspliced.kind = .fault := by
  unfold Value.unspliced
  cases v <;> rfl

/-- What an unquoted expression cannot give is a `return` that is still on its way. -/
theorem splice_gives (eval : Evaluator) (frame : Nat) :
    RuleGives Store.Whatever (fun _ => True) (fun _ => True) (fun v _ => v.kind = .fault)
      (splice eval frame) where
  ready _ _ _ _ := trivial
  gives e s _ _ := by
    unfold splice
    split
    · split
      · refine .afterAnything ?_
        intro v t
        unfold Value.spliced
        split
        · exact .ok trivial
        · exact .throw v.unspliced_kind
      · exact .ok trivial
    · exact .ok trivial

/-- A quotation gives syntax or a fault, whatever its unquoted parts come to. -/
theorem Expr.quoteWith_gives (eval : Evaluator) (frame : Nat) (node : Expr) (s : Store) :
    (node.quoteWith eval frame).run.Gives Store.Whatever
      (Ended (fun v _ => v.kind = .quotation) fun v _ => v.kind = .fault) s := by
  refine (Expr.rewriteM_gives (splice_gives eval frame) node s trivial).andThen ?_
  intro node t _ _
  refine .afterAnything ?_
  intro serial u
  exact .ok rfl

/-! ### Evaluation -/

theorem Value.fits_parted (v : Value) (s : Store) :
    v.Fits (fun v _ => v.isSignal = false) (fun v _ => v.isSignal) s :=
  ⟨id, id⟩

/-- Signals and results stay apart, whatever a store binds. -/
theorem Store.parted_invariant :
    Eval.Invariant (fun _ => Whatever) Whatever (fun _ => True) (fun _ _ => True)
      (fun v _ => v.isSignal = false) (fun v _ => v.isSignal) fun _ => True where
  outside _ step := step
  ready _ := trivial
  hosts _ _ := trivial
  later quiet _ := quiet
  plain _ _ := Value.fits_parted _ _
  wrapped _ := rfl
  inner _ := Value.fits_parted _ _
  found _ _ := Value.fits_parted _ _
  newSerial _ := trivial
  insert _ _ _ := trivial
  enter _ _ _ := ⟨trivial, fun _ _ => trivial⟩
  routine _ _ _ := rfl
  quotation _ := rfl
  spliced _ _ := trivial
  kept _ _ := trivial

/-- Evaluation is cut short by signals only, and gives none as a result. -/
theorem Expr.eval_parts (depth : Nat) : Evaluator.Parts (Expr.eval depth) :=
  fun frame e s => Store.parted_invariant.expr_eval depth frame e s trivial

theorem Stmt.eval_parts (depth frame : Nat) (st : Stmt) (s : Store) :
    (Stmt.eval depth frame st).run.Gives Store.Whatever Value.Parted? s :=
  Store.parted_invariant.stmt_evalWith (Store.parted_invariant.expr_eval depth) st trivial

/-- How a value comes out of an evaluation. -/
def Value.outcome (v : Value) : Except Value Value := if v.isSignal then .error v else .ok v

theorem Value.outcome_of_signal {v : Value} (h : v.isSignal) : v.outcome = .error v := if_pos h

theorem Value.outcome_of_quiet {v : Value} (h : v.isSignal = false) : v.outcome = .ok v := by
  simp [Value.outcome, h]

section
variable {x : Signalling Value} {s t : Store} {v : Value}

theorem Signalling.settled_of_outcome (h : x s = some (v.outcome, t)) :
    x.settled s = some (v, t) := by
  have run : x.run s = some (v.outcome, t) := h
  rw [Signalling.settled, Eval.bind_apply, run]
  unfold Value.outcome
  cases v.isSignal <;> rfl

theorem Signalling.settled_inv (run : x.settled s = some (v, t)) :
    x s = some (.ok v, t) ∨ x s = some (.error v, t) := by
  rw [Signalling.settled, Eval.bind_apply] at run
  change x.run s = _ ∨ x.run s = _
  cases given : x.run s with
  | none =>
    rw [given] at run
    cases run
  | some result =>
    obtain ⟨outcome, u⟩ := result
    rw [given] at run
    cases outcome with
    | ok w =>
      cases run
      exact .inl rfl
    | error w =>
      cases run
      exact .inr rfl

/-- A value tells by itself how it came out. -/
theorem Signalling.settled_eq_some_iff (parted : x.run.Gives Store.Whatever Value.Parted s) :
    x.settled s = some (v, t) ↔ x s = some (v.outcome, t) := by
  refine ⟨?_, settled_of_outcome⟩
  intro run
  rcases settled_inv run with given | given
  · have quiet := (parted _ _ given).2
    rw [given, Value.outcome_of_quiet quiet]
  · have loud := (parted _ _ given).2
    rw [given, Value.outcome_of_signal loud]

end

/-! ## One after the other -/

theorem Block.evalFrom_append (eval : Evaluator) (frame : Nat) (given : Option Value)
    (first rest : Block) :
    Block.evalFrom eval frame given (first ++ rest) =
      (do
        let given ← Block.evalFrom eval frame given first
        Block.evalFrom eval frame given rest) := by
  induction first generalizing given with
  | nil => simp [Block.evalFrom]
  | cons s first ih => simp [Block.evalFrom, ih]

theorem evalEach_append (eval : Evaluator) (frame : Nat) (first rest : List Expr) :
    evalEach eval frame (first ++ rest) =
      (do
        let vs ← evalEach eval frame first
        let ws ← evalEach eval frame rest
        pure (vs ++ ws)) := by
  induction first with
  | nil => simp [evalEach]
  | cons x first ih => simp [evalEach, ih]

/-! ## Evaluation at some depth -/

/-- What an expression comes to in a frame, at some depth: a value or a signal, and a store. -/
def Expr.Evaluates (frame : Nat) (e : Expr) (s : Store) (v : Value) (t : Store) : Prop :=
  ∃ depth, (Expr.eval depth frame e).settled s = some (v, t)

/-- What a statement gives in a frame, at some depth: nothing, a value or a signal, and a store. -/
def Stmt.Evaluates (frame : Nat) (st : Stmt) (s : Store) (given : Option Value) (t : Store) :
    Prop :=
  ∃ depth, (Stmt.eval depth frame st).settled? s = some (given, t)

/-- Statements are evaluated one after the other, and none of them gives a signal. -/
inductive Block.Passes (frame : Nat) : Block → Store → Store → Prop
  | nil {s} : Passes frame [] s s
  | cons {st rest s t u given} (first : Stmt.Evaluates frame st s given t)
      (quiet : ∀ v ∈ given, v.isSignal = false) (others : Passes frame rest t u) :
      Passes frame (st :: rest) s u

/-- Arguments are evaluated one after the other, and none of them gives a signal. -/
inductive ArgsPass (frame : Nat) : List Expr → Store → Store → Prop
  | nil {s} : ArgsPass frame [] s s
  | cons {x rest s t u v} (first : Expr.Evaluates frame x s v t) (quiet : v.isSignal = false)
      (others : ArgsPass frame rest t u) : ArgsPass frame (x :: rest) s u

open Filter

section
variable {frame : Nat} {s t u : Store} {v w : Value}

/-- Every depth from some on comes to the same. -/
theorem Expr.Evaluates.eventually {e : Expr} (h : e.Evaluates frame s v t) :
    ∀ᶠ depth in atTop, Expr.eval depth frame e s = some (v.outcome, t) := by
  obtain ⟨least, run⟩ := h
  filter_upwards [eventually_ge_atTop least] with depth le
  have given := (Signalling.settled_eq_some_iff (Expr.eval_parts least frame e s)).mp run
  exact Expr.eval_deepens le frame e s _ given

theorem Expr.Evaluates.of_run {e : Expr} {depth : Nat}
    (run : Expr.eval depth frame e s = some (v.outcome, t)) : e.Evaluates frame s v t :=
  ⟨depth, Signalling.settled_of_outcome run⟩

/-- An expression comes to one thing at most. -/
theorem Expr.Evaluates.unique {e : Expr} (h : e.Evaluates frame s v t)
    (h' : e.Evaluates frame s w u) : v = w ∧ t = u := by
  obtain ⟨depth, run, run'⟩ := (h.eventually.and h'.eventually).exists
  have settled := Signalling.settled_of_outcome run
  have settled' := Signalling.settled_of_outcome run'
  rw [settled] at settled'
  cases settled'
  exact ⟨rfl, rfl⟩

theorem Stmt.Evaluates.eventually {st : Stmt} {given : Option Value}
    (h : st.Evaluates frame s given t) (quiet : ∀ v ∈ given, v.isSignal = false) :
    ∀ᶠ depth in atTop, Stmt.eval depth frame st s = some (.ok given, t) := by
  obtain ⟨least, run⟩ := h
  filter_upwards [eventually_ge_atTop least] with depth le
  refine Stmt.evalWith_deepens (Expr.eval_deepens le) frame st s _ ?_
  change (Stmt.eval least frame st).run s = _
  rw [Signalling.settled?, Eval.bind_apply] at run
  cases came : (Stmt.eval least frame st).run s with
  | none =>
    rw [came] at run
    cases run
  | some result =>
    obtain ⟨outcome, u⟩ := result
    have ended := (Stmt.eval_parts least frame st s outcome u came).2
    rw [came] at run
    cases outcome with
    | ok given => cases run; rfl
    | error w =>
      cases run
      have loud : w.isSignal := ended
      rw [quiet w rfl] at loud
      cases loud

theorem Block.Passes.eventually {block : Block} (h : Block.Passes frame block s t) :
    ∀ᶠ depth in atTop, ∀ start, ∃ given,
      Block.evalFrom (Expr.eval depth) frame start block s = some (.ok given, t) := by
  induction h with
  | nil => exact .of_forall fun _ start => ⟨start, rfl⟩
  | cons first quiet _ ih =>
    filter_upwards [first.eventually quiet, ih] with depth run rest start
    obtain ⟨given, others⟩ := rest _
    exact ⟨given, (andThen_of_ok run).trans others⟩

theorem ArgsPass.eventually {args : List Expr} (h : ArgsPass frame args s t) :
    ∀ᶠ depth in atTop, ∃ vs, evalEach (Expr.eval depth) frame args s = some (.ok vs, t) := by
  induction h with
  | nil => exact .of_forall fun _ => ⟨[], rfl⟩
  | cons first quiet _ ih =>
    filter_upwards [first.eventually, ih] with depth run rest
    rw [Value.outcome_of_quiet quiet] at run
    obtain ⟨vs, others⟩ := rest
    exact ⟨_ :: vs, (andThen_of_ok run).trans ((andThen_of_ok others).trans rfl)⟩

end

end Quasiquote
