import Quasiquote.Computation
import Quasiquote.Proofs.Likeness.Syntax
import Quasiquote.Syntax.Rewrite

/-!
# One computation mirrors another

* `Eval.Mirrors alike p Q x y`: from stores that are alike, whatever `x` gives is mirrored by what
  `y` gives. In what way stores are alike is a world `p`, which may grow as the two go on.
* This goes through every way of putting computations together, so that a claim about the evaluator
  comes down to its few effects.
* `Expr.rewriteM_mirrors`: a rewrite by one rule mirrors a rewrite by another if the rules do, over
  expressions that match.
-/

namespace Quasiquote

section
variable {World : Type} [Preorder World]

/-- From stores that are alike in a world, the second computation gives a result whenever the first
does; the stores are then alike in a later world, and the results are related there. -/
def Eval.Mirrors {α β : Type} (alike : World → Store → Store → Prop) (p : World)
    (Q : World → α → β → Prop) (x : Eval α) (y : Eval β) : Prop :=
  ∀ s t, alike p s t → ∀ a s', x s = some (a, s') →
    ∃ b t' q, y t = some (b, t') ∧ p ≤ q ∧ alike q s' t' ∧ Q q a b

/-- Two computations that may be cut short end alike. -/
def EndsAlike {ε δ α β : Type} (E : World → ε → δ → Prop) (Q : World → α → β → Prop) (p : World) :
    Except ε α → Except δ β → Prop
  | .ok a, .ok b => Q p a b
  | .error e, .error d => E p e d
  | _, _ => False

namespace Eval.Mirrors

variable {alike : World → Store → Store → Prop} {p : World} {α β γ δ ε ζ : Type}
variable {Q : World → α → β → Prop} {P : World → γ → δ → Prop} {E E' : World → ε → ζ → Prop}

theorem exhausted {y : Eval β} : Mirrors alike p Q (Eval.exhausted : Eval α) y := by
  intro s t _ a s' run
  cases run

theorem get :
    Mirrors alike p alike (MonadState.get : Eval Store) (MonadState.get : Eval Store) := by
  intro s t like a s' run
  cases run
  exact ⟨t, t, p, rfl, le_rfl, like, like⟩

theorem pure {a : α} {b : β} (h : Q p a b) :
    Mirrors alike p Q (Pure.pure a : Eval α) (Pure.pure b : Eval β) := by
  intro s t like _ _ run
  cases run
  exact ⟨b, t, p, rfl, le_rfl, like, h⟩

theorem bind {x : Eval α} {y : Eval β} {f : α → Eval γ} {g : β → Eval δ}
    (h : Mirrors alike p Q x y)
    (next : ∀ q, p ≤ q → ∀ a b, Q q a b → Mirrors alike q P (f a) (g b)) :
    Mirrors alike p P (x >>= f) (y >>= g) := by
  intro s t like c u run
  rw [Eval.bind_apply] at run
  cases first : x s with
  | none => rw [first] at run; cases run
  | some result =>
    obtain ⟨a, s'⟩ := result
    rw [first] at run
    obtain ⟨b, t', q, run', le, like', related⟩ := h s t like a s' first
    obtain ⟨d, v, r, last, le', like'', ended⟩ := next q le a b related s' t' like' c u run
    refine ⟨d, v, r, ?_, le.trans le', like'', ended⟩
    rw [Eval.bind_apply, run']
    exact last

/-! ## Computations that may be cut short -/

theorem ok {a : α} {b : β} (h : Q p a b) :
    Mirrors alike p (EndsAlike E Q) (Pure.pure a : ExceptT ε Eval α).run
      (Pure.pure b : ExceptT ζ Eval β).run :=
  pure (Q := EndsAlike E Q) (a := .ok a) (b := .ok b) h

theorem throw {e : ε} {d : ζ} (h : E p e d) :
    Mirrors alike p (EndsAlike E Q) (MonadExcept.throw e : ExceptT ε Eval α).run
      (MonadExcept.throw d : ExceptT ζ Eval β).run :=
  pure (Q := EndsAlike E Q) (a := .error e) (b := .error d) h

theorem lift {x : Eval α} {y : Eval β} (h : Mirrors alike p Q x y) :
    Mirrors alike p (EndsAlike E Q) (liftM x : ExceptT ε Eval α).run
      (liftM y : ExceptT ζ Eval β).run :=
  bind h fun _ _ a b related => pure (Q := EndsAlike E Q) (a := .ok a) (b := .ok b) related

theorem andThen {x : ExceptT ε Eval α} {y : ExceptT ζ Eval β} {f : α → ExceptT ε Eval γ}
    {g : β → ExceptT ζ Eval δ} (h : Mirrors alike p (EndsAlike E Q) x.run y.run)
    (next : ∀ q, p ≤ q → ∀ a b, Q q a b → Mirrors alike q (EndsAlike E P) (f a).run (g b).run) :
    Mirrors alike p (EndsAlike E P) (x >>= f).run (y >>= g).run := by
  rw [ExceptT.run_bind, ExceptT.run_bind]
  refine bind h fun q le outcome outcome' ended => ?_
  cases outcome <;> cases outcome'
  case ok.ok a b => exact next q le a b ended
  case error.error e d => exact throw ended
  all_goals exact ended.elim

theorem mapM {f : α → ExceptT ε Eval γ} {g : β → ExceptT ζ Eval δ} {r : α → β → Prop}
    {like : γ → δ → Prop} {xs : List α} {ys : List β} (related : List.Forall₂ r xs ys)
    (each : ∀ q, p ≤ q → ∀ x ∈ xs, ∀ y, r x y →
      Mirrors alike q (EndsAlike E fun _ => like) (f x).run (g y).run) :
    Mirrors alike p (EndsAlike E fun _ as bs => as.length = xs.length ∧ List.Forall₂ like as bs)
      (xs.mapM f).run (ys.mapM g).run := by
  induction related generalizing p with
  | nil => exact .ok ⟨rfl, .nil⟩
  | @cons x y xs ys first _ ih =>
    rw [List.mapM_cons, List.mapM_cons]
    refine (each p le_rfl x List.mem_cons_self y first).andThen fun q le a b pair => ?_
    have others := ih fun r le' z inside => each r (le.trans le') z (List.mem_cons_of_mem x inside)
    refine others.andThen fun r _ as bs => ?_
    rintro ⟨length, pairs⟩
    exact .ok ⟨congrArg Nat.succ length, .cons pair pairs⟩

theorem catching {x : ExceptT ε Eval α} {y : ExceptT ζ Eval β} {handle : ε → ExceptT ε Eval α}
    {handle' : ζ → ExceptT ζ Eval β} (h : Mirrors alike p (EndsAlike E Q) x.run y.run)
    (next : ∀ q, p ≤ q → ∀ e d, E q e d →
      Mirrors alike q (EndsAlike E' Q) (handle e).run (handle' d).run) :
    Mirrors alike p (EndsAlike E' Q) (tryCatch x handle).run (tryCatch y handle').run := by
  change Mirrors alike p _ (ExceptT.tryCatch x handle) (ExceptT.tryCatch y handle')
  refine bind h fun q le outcome outcome' ended => ?_
  cases outcome <;> cases outcome'
  case ok.ok a b => exact pure (Q := EndsAlike E' Q) (a := .ok a) (b := .ok b) ended
  case error.error e d => exact next q le e d ended
  all_goals exact ended.elim

end Eval.Mirrors

end

/-! ## Rewriting -/

section
variable {World : Type} [Preorder World] {alike : World → Store → Store → Prop} {ε ζ : Type}
variable {naming : Naming} {spot : Expr → Expr → Prop} {E : World → ε → ζ → Prop}
variable {rule : Expr → ExceptT ε Eval Expr} {rule' : Expr → ExceptT ζ Eval Expr}

open Eval

/-- One rule mirrors another over expressions that are alike, and so does rewriting by them at
related spots, from some world on. -/
structure RuleMirrors (alike : World → Store → Store → Prop) (naming : Naming)
    (spot : Expr → Expr → Prop) (E : World → ε → ζ → Prop) (rule : Expr → ExceptT ε Eval Expr)
    (rule' : Expr → ExceptT ζ Eval Expr) (p : World) : Prop where
  node : ∀ q, p ≤ q → ∀ x y, x.Alike naming y →
    Mirrors alike q (EndsAlike E fun _ => Expr.Alike naming) (rule x).run (rule' y).run
  spots : ∀ q, p ≤ q → ∀ x y, spot x y →
    Mirrors alike q (EndsAlike E fun _ => Expr.Alike naming) (x.rewriteM rule).run
      (y.rewriteM rule').run

theorem RuleMirrors.later {p q : World} (h : RuleMirrors alike naming spot E rule rule' p)
    (le : p ≤ q) : RuleMirrors alike naming spot E rule rule' q :=
  ⟨fun r le' => h.node r (le.trans le'), fun r le' => h.spots r (le.trans le')⟩

theorem Expr.rewriteM_mirrors {p : World} (h : RuleMirrors alike naming spot E rule rule' p)
    {x y : Expr} (like : x.Match naming spot y) :
    Mirrors alike p (EndsAlike E fun _ => Expr.Alike naming) (x.rewriteM rule).run
      (y.rewriteM rule').run := by
  induction x using Expr.partwise generalizing p y with
  | step x each =>
    rcases like.parts with related | ⟨parts, rebuilt⟩
    · exact h.spots p le_rfl x y related
    · rw [Expr.rewriteM_eq_parts, Expr.rewriteM_eq_parts rule']
      have both := Mirrors.mapM parts fun q le z inside w like => each z inside (h.later le) like
      refine both.andThen ?_
      rintro q le xs ys ⟨length, likes⟩
      exact h.node q le _ _ (rebuilt xs ys length likes)

theorem rewriteBlockM_mirrors {p : World} (h : RuleMirrors alike naming spot E rule rule' p)
    {b c : Block} (like : BlockMatch naming spot b c) :
    Mirrors alike p (EndsAlike E fun _ => BlockAlike naming) (rewriteBlockM rule b).run
      (rewriteBlockM rule' c).run := by
  rw [rewriteBlockM_eq, rewriteBlockM_eq rule']
  have both := Mirrors.mapM like.values fun q le z _ w like =>
    Expr.rewriteM_mirrors (h.later le) like
  refine both.andThen ?_
  rintro q le xs ys ⟨_, likes⟩
  exact .ok (like.withValues likes)

end

end Quasiquote
