import Mathlib
import Quasiquote.Expansion
import Quasiquote.Proofs.Rewriting.Rebuilding

/-!
# What a computation leads to

A world is a store together with something that the store does not show, such as what was done to
get there.

* `Eval.Leads store R Q x p`: whatever `x` gives from the store of the world `p`, the store it
  leaves is that of a world in the relation `R` to `p`, and the result is as `Q` says of results in
  that world.
* `Ended Q E`: what is asked of the result of a computation that may be cut short, and of what cuts
  it short.
* `Expr.rewriteM_leads`: if a rule gives passing expressions for expressions with passing parts, a
  rewrite gives passing expressions.
* `RuleLeads.expandNode`: the rule that expands macro calls, given what their evaluation does.
-/

namespace Quasiquote

/-- Whatever a computation gives from the store of a world, the store left is that of a world, and
that world and the result are as these relations say. -/
def Eval.Leads {World α : Type} (store : World → Store) (R : World → World → Prop)
    (Q : α → World → Prop) (x : Eval α) (p : World) : Prop :=
  ∀ a t, x (store p) = some (a, t) → ∃ q, store q = t ∧ R p q ∧ Q a q

/-- What is asked of a result and of what may stand in its place. -/
def Ended {ε α World : Type} (Q : α → World → Prop) (E : ε → World → Prop) :
    Except ε α → World → Prop
  | .ok a, q => Q a q
  | .error e, q => E e q

namespace Eval.Leads

variable {World : Type} {store : World → Store}

section
variable {R : World → World → Prop} {α β ε : Type} {p : World}
variable {Q Q' : α → World → Prop} {P : β → World → Prop} {E E' : ε → World → Prop}

theorem exhausted : Eval.exhausted.Leads store R Q p := by
  intro a t run
  cases run

theorem weaken {x : Eval α} (h : x.Leads store R Q p) (sub : ∀ a q, R p q → Q a q → Q' a q) :
    x.Leads store R Q' p := by
  intro a t run
  obtain ⟨q, left, step, given⟩ := h a t run
  exact ⟨q, left, step, sub a q step given⟩

theorem beyond {R' : World → World → Prop} {x : Eval α} (h : x.Leads store R Q p)
    (sub : ∀ q, R p q → R' p q) : x.Leads store R' Q p := by
  intro a t run
  obtain ⟨q, left, step, given⟩ := h a t run
  exact ⟨q, left, sub q step, given⟩

theorem weakenEnds {x : ExceptT ε Eval α} (h : x.run.Leads store R (Ended Q E) p)
    (ok : ∀ a q, R p q → Q a q → Q' a q) (error : ∀ e q, R p q → E e q → E' e q) :
    x.run.Leads store R (Ended Q' E') p :=
  h.weaken fun outcome q =>
    match outcome with
    | .ok a => ok a q
    | .error e => error e q

theorem modifyGet {f : Store → α × Store} {q : World} (left : store q = (f (store p)).2)
    (step : R p q) (given : Q (f (store p)).1 q) : (modifyGet f : Eval α).Leads store R Q p := by
  intro a t run
  obtain ⟨rfl, rfl⟩ := Prod.mk.inj (Option.some.inj run)
  exact ⟨q, left, step, given⟩

variable [IsPreorder World R]

theorem get : (MonadState.get : Eval Store).Leads store R (fun s q => s = store p ∧ q = p) p :=
  modifyGet rfl (refl p) ⟨rfl, rfl⟩

theorem pure {a : α} (h : Q a p) : (Pure.pure a : Eval α).Leads store R Q p := by
  intro b t run
  cases run
  exact ⟨p, rfl, refl p, h⟩

theorem bind {x : Eval α} {f : α → Eval β} (hx : x.Leads store R Q p)
    (hf : ∀ a q, R p q → Q a q → (f a).Leads store R P q) : (x >>= f).Leads store R P p := by
  intro b u run
  rw [Eval.bind_apply] at run
  cases first : x (store p) with
  | none => rw [first] at run; cases run
  | some result =>
    obtain ⟨a, t⟩ := result
    rw [first] at run
    obtain ⟨q, rfl, before, given⟩ := hx a t first
    obtain ⟨r, left, after, last⟩ := hf a q before given b u run
    exact ⟨r, left, IsTrans.trans p q r before after, last⟩

/-! ## Computations that may be cut short -/

theorem ok {a : α} (h : Q a p) :
    (Pure.pure a : ExceptT ε Eval α).run.Leads store R (Ended Q E) p :=
  pure (Q := Ended Q E) (a := .ok a) h

theorem throw {e : ε} (h : E e p) :
    (MonadExcept.throw e : ExceptT ε Eval α).run.Leads store R (Ended Q E) p :=
  pure (Q := Ended Q E) (a := .error e) h

theorem lift {x : Eval α} (hx : x.Leads store R Q p) :
    (liftM x : ExceptT ε Eval α).run.Leads store R (Ended Q E) p :=
  bind hx fun a _ _ given => pure (Q := Ended Q E) (a := .ok a) given

theorem andThen {x : ExceptT ε Eval α} {f : α → ExceptT ε Eval β}
    (hx : x.run.Leads store R (Ended Q E) p)
    (hf : ∀ a q, R p q → Q a q → (f a).run.Leads store R (Ended P E) q) :
    (x >>= f).run.Leads store R (Ended P E) p := by
  rw [ExceptT.run_bind]
  refine bind hx fun outcome q before given => ?_
  cases outcome with
  | ok a => exact hf a q before given
  | error e => exact throw given

/-- One computation for each member of a list, in ready worlds. -/
theorem mapM {f : α → ExceptT ε Eval β} {xs : List α} {Ready : World → Prop} {pass : β → Prop}
    (later : ∀ p q, Ready p → R p q → Ready q)
    (each : ∀ x ∈ xs, ∀ p, Ready p → (f x).run.Leads store R (Ended (fun y _ => pass y) E) p)
    (ready : Ready p) :
    (xs.mapM f).run.Leads store R
      (Ended (fun ys _ => ys.length = xs.length ∧ ∀ y ∈ ys, pass y) E) p := by
  induction xs generalizing p with
  | nil => exact .ok ⟨rfl, by simp⟩
  | cons x xs ih =>
    rw [List.mapM_cons]
    refine (each x List.mem_cons_self p ready).andThen fun y q before passes => ?_
    have others := ih (fun z inside => each z (List.mem_cons_of_mem x inside))
      (later p q ready before)
    refine others.andThen ?_
    rintro ys r _ ⟨length, more⟩
    exact .ok ⟨congrArg Nat.succ length, List.forall_mem_cons.mpr ⟨passes, more⟩⟩

theorem catching {x : ExceptT ε Eval α} {handle : ε → ExceptT ε Eval α}
    (hx : x.run.Leads store R (Ended Q E) p)
    (hh : ∀ e q, R p q → E e q → (handle e).run.Leads store R (Ended Q E') q) :
    (tryCatch x handle).run.Leads store R (Ended Q E') p := by
  change Leads store R (Ended Q E') (ExceptT.tryCatch x handle) p
  refine bind hx fun outcome q before given => ?_
  cases outcome with
  | ok a => exact pure (Q := Ended Q E') (a := .ok a) given
  | error e => exact hh e q before given

theorem adapt {δ : Type} {x : ExceptT ε Eval α} {f : ε → δ} {D : δ → World → Prop}
    (hx : x.run.Leads store R (Ended Q E) p) (hf : ∀ e q, E e q → D (f e) q) :
    (x.adapt f).run.Leads store R (Ended Q D) p := by
  change Leads store R (Ended Q D) (Except.mapError f <$> x.run) p
  rw [map_eq_pure_bind]
  refine bind hx fun outcome q _ given => ?_
  cases outcome with
  | ok a => exact ok given
  | error e => exact throw (hf e q given)

end

section
variable {R : World → World → Prop} [IsPreorder World R] {p : World} {Q E : Value → World → Prop}

/-- A value goes on as a result or as a signal. -/
theorem raise {v : Value} (quiet : v.isSignal = false → Q v p) (signal : v.isSignal → E v p) :
    v.raise.run.Leads store R (Ended Q E) p := by
  unfold Value.raise
  cases raised : v.isSignal with
  | true => exact .throw (signal raised)
  | false => exact .ok (quiet raised)

theorem settled {x : Signalling Value} (h : x.run.Leads store R (Ended Q E) p) :
    x.settled.Leads store R (fun v q => Q v q ∨ E v q) p := by
  refine bind h fun outcome q _ ended => ?_
  cases outcome with
  | ok v => exact .pure (.inl ended)
  | error signal => exact .pure (.inr ended)

theorem settled? {x : Signalling (Option Value)}
    (h : x.run.Leads store R (Ended (fun given q => ∀ v ∈ given, Q v q) E) p) :
    x.settled?.Leads store R (fun given q => ∀ v ∈ given, Q v q ∨ E v q) p := by
  refine bind h fun outcome q _ ended => ?_
  cases outcome with
  | ok given => exact .pure fun v hv => .inl (ended v hv)
  | error signal => exact .pure fun v hv => .inr (Option.some.inj hv ▸ ended)

end

end Eval.Leads

/-! ## Rewriting -/

section
variable {World : Type} {store : World → Store} {R : World → World → Prop} [IsPreorder World R]
variable {ε : Type} {rule : Expr → ExceptT ε Eval Expr}
variable {Ready : World → Prop} {pass : Expr → Prop} {E : ε → World → Prop}

open Eval

/-- From a ready world a rule gives a passing expression, if the parts pass, and worlds stay
ready. -/
structure RuleLeads (store : World → Store) (R : World → World → Prop) (Ready : World → Prop)
    (pass : Expr → Prop) (E : ε → World → Prop) (rule : Expr → ExceptT ε Eval Expr) : Prop where
  ready : ∀ p q, Ready p → R p q → Ready q
  leads : ∀ e p, Ready p → (∀ part ∈ e.parts, pass part) →
    (rule e).run.Leads store R (Ended (fun e' _ => pass e') E) p

theorem Expr.rewriteM_leads (h : RuleLeads store R Ready pass E rule) (e : Expr) (p : World)
    (ready : Ready p) :
    (e.rewriteM rule).run.Leads store R (Ended (fun e' _ => pass e') E) p := by
  induction e using Expr.partwise generalizing p with
  | step e parts =>
    rw [Expr.rewriteM_eq_parts]
    refine (Leads.mapM h.ready parts ready).andThen ?_
    rintro xs q before ⟨length, passes⟩
    refine h.leads (e.withParts xs) q (h.ready p q ready before) ?_
    rwa [Expr.parts_withParts length]

theorem rewriteBlockM_leads (h : RuleLeads store R Ready pass E rule) (block : Block) (p : World)
    (ready : Ready p) :
    (rewriteBlockM rule block).run.Leads store R
      (Ended (fun block' _ => ∀ st ∈ block', pass (Stmt.value st)) E) p := by
  rw [rewriteBlockM_eq]
  refine (Leads.mapM h.ready (fun x _ => x.rewriteM_leads h) ready).andThen ?_
  rintro xs q _ ⟨length, passes⟩
  refine .ok fun st inside => passes st.value ?_
  rw [← values_withValues (length.trans (List.length_map _))]
  exact List.mem_map_of_mem inside

/-- The rule that expands macro calls, given that an expression passes which is none, and that the
evaluation of macros is in the relation. -/
theorem RuleLeads.expandNode {frame : Nat} (later : ∀ p q, Ready p → R p q → Ready q)
    (plain : ∀ e p, Ready p → (store p).macroCall? frame e = none →
      (∀ part ∈ e.parts, pass part) → pass e)
    (calls : ∀ depth e p call, Ready p → (store p).macroCall? frame e = some call →
      (call.eval depth).Leads store R (fun _ _ => True) p) (depth : Nat) :
    RuleLeads store R Ready pass (fun _ _ => True) (Quasiquote.expandNode frame depth) := by
  induction depth with
  | zero => exact ⟨later, fun _ _ _ _ => .exhausted⟩
  | succ depth ih =>
    refine ⟨later, fun e p ready parts => ?_⟩
    rw [Quasiquote.expandNode]
    refine (Leads.lift .get).andThen ?_
    rintro _ q _ ⟨rfl, rfl⟩
    cases seen : (store q).macroCall? frame e with
    | none => exact .ok (plain e q ready seen parts)
    | some call =>
      dsimp only
      split
      · -- What the macro gives is rewritten by the same rule, one level further in.
        refine (Leads.lift (calls depth e q call ready seen)).andThen fun given r qr _ => ?_
        refine Leads.andThen (Q := fun _ r => Ready r) ?_ fun node r _ ready =>
          Expr.rewriteM_leads ih node r ready
        cases call.syntaxOf given with
        | ok node => exact .ok (later q r ready qr)
        | error e => exact .throw trivial
      · exact .throw trivial

end

end Quasiquote
