import Quasiquote.Proofs.Store.Leading

/-!
# What a computation gives

* `Eval.Keeps R x`: whenever `x` gives a result, the store it leaves is in the relation `R` to the
  store it found. A computation without a result keeps everything.
* `Eval.Gives R Q x s`: whatever `x` gives from the store `s`, the store it leaves is in the
  relation `R` to `s`, and the result is as `Q` says of results in that store. This is what `x`
  leads to if a world is nothing but a store (`Eval.Gives.leads`, `Eval.Leads.gives`).
* `Expr.rewriteM_gives`: if a rule gives passing expressions for expressions with passing parts, a
  rewrite gives passing expressions. `rewriteBlockM_keeps`: it keeps what the rule keeps.
* `RuleGives.expandNode`: the rule that expands macro calls, given what their evaluation does.
* `Expr.rewriteM_eq_self`: if a rule keeps passing expressions, a rewrite keeps an expression that
  passes everywhere.
-/

namespace Quasiquote

/-- Whatever store a computation leaves is in this relation to the store it found. -/
def Eval.Keeps {α : Type} (R : Store → Store → Prop) (x : Eval α) : Prop :=
  ∀ s a t, x s = some (a, t) → R s t

namespace Eval.Keeps

section
variable {R : Store → Store → Prop} {α β : Type}

theorem modifyGet {f : Store → α × Store} (h : ∀ s, R s (f s).2) :
    (modifyGet f : Eval α).Keeps R := by
  intro s a t run
  obtain ⟨rfl, rfl⟩ := Prod.mk.inj (Option.some.inj run)
  exact h s

variable [IsPreorder Store R]

theorem pure (a : α) : (Pure.pure a : Eval α).Keeps R := by
  intro s b t run
  cases run
  exact refl s

theorem bind {x : Eval α} {f : α → Eval β} (hx : x.Keeps R) (hf : ∀ a, (f a).Keeps R) :
    (x >>= f).Keeps R := by
  intro s b u run
  rw [Eval.bind_apply] at run
  cases first : x s with
  | none => rw [first] at run; cases run
  | some result =>
    obtain ⟨a, t⟩ := result
    rw [first] at run
    exact IsTrans.trans s t u (hx s a t first) (hf a t b u run)

theorem settled {x : Signalling Value} (hx : x.run.Keeps R) : x.settled.Keeps R := by
  refine bind hx fun outcome => ?_
  cases outcome <;> exact pure _

theorem settled? {x : Signalling (Option Value)} (hx : x.run.Keeps R) : x.settled?.Keeps R := by
  refine bind hx fun outcome => ?_
  cases outcome <;> exact pure _

end

end Eval.Keeps

/-- Whatever a computation gives from a store, store and result are as these relations say. -/
def Eval.Gives {α : Type} (R : Store → Store → Prop) (Q : α → Store → Prop) (x : Eval α)
    (s : Store) : Prop :=
  ∀ a t, x s = some (a, t) → R s t ∧ Q a t

theorem Eval.Gives.leads {α : Type} {R : Store → Store → Prop} {Q : α → Store → Prop} {x : Eval α}
    {s : Store} (h : x.Gives R Q s) : x.Leads id R Q s :=
  fun a t run => ⟨t, rfl, h a t run⟩

theorem Eval.Leads.gives {α : Type} {R : Store → Store → Prop} {Q : α → Store → Prop} {x : Eval α}
    {s : Store} (h : x.Leads id R Q s) : x.Gives R Q s := by
  intro a t run
  obtain ⟨_, rfl, both⟩ := h a t run
  exact both

theorem Eval.Keeps.of_gives {α : Type} {R : Store → Store → Prop} {Q : α → Store → Prop}
    {x : Eval α} (h : ∀ s, x.Gives R Q s) : x.Keeps R :=
  fun s a t run => (h s a t run).1

def Store.Whatever (_ _ : Store) : Prop := True

instance : IsPreorder Store Store.Whatever where
  refl _ := trivial
  trans _ _ _ _ _ := trivial

namespace Eval.Gives

section
variable {R : Store → Store → Prop} {α β ε : Type} {s : Store}
variable {Q Q' : α → Store → Prop} {P : β → Store → Prop} {E E' : ε → Store → Prop}

theorem of_keeps {x : Eval α} (h : x.Keeps R) : x.Gives R (fun _ _ => True) s :=
  fun a t run => ⟨h s a t run, trivial⟩

theorem weaken {x : Eval α} (h : x.Gives R Q s) (sub : ∀ a t, R s t → Q a t → Q' a t) :
    x.Gives R Q' s := by
  intro a t run
  obtain ⟨before, given⟩ := h a t run
  exact ⟨before, sub a t before given⟩

theorem weakenEnds {x : ExceptT ε Eval α} (h : x.run.Gives R (Ended Q E) s)
    (ok : ∀ a t, R s t → Q a t → Q' a t) (error : ∀ e t, R s t → E e t → E' e t) :
    x.run.Gives R (Ended Q' E') s :=
  h.weaken fun outcome t =>
    match outcome with
    | .ok a => ok a t
    | .error e => error e t

theorem modifyGet {f : Store → α × Store} (h : R s (f s).2) (q : Q (f s).1 (f s).2) :
    (modifyGet f : Eval α).Gives R Q s := by
  intro a t run
  obtain ⟨rfl, rfl⟩ := Prod.mk.inj (Option.some.inj run)
  exact ⟨h, q⟩

variable [IsPreorder Store R]

theorem pure {a : α} (h : Q a s) : (Pure.pure a : Eval α).Gives R Q s := by
  intro b t run
  cases run
  exact ⟨refl s, h⟩

theorem bind {x : Eval α} {f : α → Eval β} (hx : x.Gives R Q s)
    (hf : ∀ a t, R s t → Q a t → (f a).Gives R P t) : (x >>= f).Gives R P s :=
  (hx.leads.bind fun a t step given => (hf a t step given).leads).gives

/-! ## Computations that may be cut short -/

theorem ok {a : α} (h : Q a s) : (Pure.pure a : ExceptT ε Eval α).run.Gives R (Ended Q E) s :=
  pure (Q := Ended Q E) (a := .ok a) h

theorem throw {e : ε} (h : E e s) :
    (MonadExcept.throw e : ExceptT ε Eval α).run.Gives R (Ended Q E) s :=
  pure (Q := Ended Q E) (a := .error e) h

theorem lift {x : Eval α} (hx : x.Gives R Q s) :
    (liftM x : ExceptT ε Eval α).run.Gives R (Ended Q E) s :=
  bind hx fun a _ _ q => pure (Q := Ended Q E) (a := .ok a) q

theorem andThen {x : ExceptT ε Eval α} {f : α → ExceptT ε Eval β}
    (hx : x.run.Gives R (Ended Q E) s)
    (hf : ∀ a t, R s t → Q a t → (f a).run.Gives R (Ended P E) t) :
    (x >>= f).run.Gives R (Ended P E) s :=
  (hx.leads.andThen fun a t step given => (hf a t step given).leads).gives

theorem adapt {δ : Type} {x : ExceptT ε Eval α} {f : ε → δ} {D : δ → Store → Prop}
    (hx : x.run.Gives R (Ended Q E) s) (hf : ∀ e t, E e t → D (f e) t) :
    (x.adapt f).run.Gives R (Ended Q D) s :=
  (hx.leads.adapt hf).gives

end

section
variable {α β ε : Type} {s : Store} {P : β → Store → Prop} {E : ε → Store → Prop}

/-- Of any computation at all, nothing is known. -/
theorem anything (x : Eval α) : x.Gives Store.Whatever (fun _ _ => True) s :=
  fun _ _ _ => ⟨trivial, trivial⟩

/-- What holds whatever was done before. -/
theorem afterAnything {x : Eval α} {f : α → ExceptT ε Eval β}
    (next : ∀ a t, (f a).run.Gives Store.Whatever (Ended P E) t) :
    ((liftM x : ExceptT ε Eval α) >>= f).run.Gives Store.Whatever (Ended P E) s := by
  refine andThen (lift (anything x)) ?_
  intro a t _ _
  exact next a t

end

section
variable {R : Store → Store → Prop} [IsPreorder Store R] {s : Store} {Q E : Value → Store → Prop}

theorem settled {x : Signalling Value} (h : x.run.Gives R (Ended Q E) s) :
    x.settled.Gives R (fun v t => Q v t ∨ E v t) s :=
  h.leads.settled.gives

theorem settled? {x : Signalling (Option Value)}
    (h : x.run.Gives R (Ended (fun given t => ∀ v ∈ given, Q v t) E) s) :
    x.settled?.Gives R (fun given t => ∀ v ∈ given, Q v t ∨ E v t) s :=
  h.leads.settled?.gives

end

end Eval.Gives

/-! ## Rewriting -/

section
variable {R : Store → Store → Prop} [IsPreorder Store R] {ε : Type}
variable {rule : Expr → ExceptT ε Eval Expr}
variable {Ready : Store → Prop} {pass : Expr → Prop} {E : ε → Store → Prop}

open Eval

/-- From a ready store a rule gives a passing expression, if the parts pass, and stores stay
ready. -/
structure RuleGives (R : Store → Store → Prop) (Ready : Store → Prop) (pass : Expr → Prop)
    (E : ε → Store → Prop) (rule : Expr → ExceptT ε Eval Expr) : Prop where
  ready : ∀ s t, Ready s → R s t → Ready t
  gives : ∀ e s, Ready s → (∀ part ∈ e.parts, pass part) →
    (rule e).run.Gives R (Ended (fun e' _ => pass e') E) s

omit [IsPreorder Store R] in
theorem RuleGives.leads (h : RuleGives R Ready pass E rule) : RuleLeads id R Ready pass E rule :=
  ⟨h.ready, fun e s ready parts => (h.gives e s ready parts).leads⟩

omit [IsPreorder Store R] in
theorem RuleLeads.gives (h : RuleLeads id R Ready pass E rule) : RuleGives R Ready pass E rule :=
  ⟨h.ready, fun e s ready parts => (h.leads e s ready parts).gives⟩

theorem Expr.rewriteM_gives (h : RuleGives R Ready pass E rule) (e : Expr) (s : Store)
    (ready : Ready s) : (e.rewriteM rule).run.Gives R (Ended (fun e' _ => pass e') E) s :=
  (e.rewriteM_leads h.leads s ready).gives

theorem rewriteBlockM_gives (h : RuleGives R Ready pass E rule) (block : List Stmt) (s : Store)
    (ready : Ready s) :
    (rewriteBlockM rule block).run.Gives R
      (Ended (fun block' _ => ∀ st ∈ block', pass (Stmt.value st)) E) s :=
  (rewriteBlockM_leads h.leads block s ready).gives

omit [IsPreorder Store R] in
theorem RuleGives.of_keeps (h : ∀ e, (rule e).run.Keeps R) :
    RuleGives R (fun _ => True) (fun _ => True) (fun _ _ => True) rule where
  ready _ _ _ _ := trivial
  gives e _ _ _ := (Gives.of_keeps (h e)).weaken fun outcome _ _ _ => by
    cases outcome <;> trivial

theorem rewriteBlockM_keeps (h : ∀ e, (rule e).run.Keeps R) (block : List Stmt) :
    (rewriteBlockM rule block).run.Keeps R :=
  .of_gives fun s => rewriteBlockM_gives (.of_keeps h) block s trivial

/-- The rule that expands macro calls, given that an expression passes which is none, and that the
evaluation of macros is in the relation. -/
theorem RuleGives.expandNode {frame : Nat} (later : ∀ s t, Ready s → R s t → Ready t)
    (plain : ∀ e s, Ready s → s.macroCall? frame e = none → (∀ part ∈ e.parts, pass part) → pass e)
    (calls : ∀ depth e s call, Ready s → s.macroCall? frame e = some call →
      (call.eval depth).Gives R (fun _ _ => True) s) (depth : Nat) :
    RuleGives R Ready pass (fun _ _ => True) (Quasiquote.expandNode frame depth) :=
  have calls depth e s call ready seen := (calls depth e s call ready seen).leads
  (RuleLeads.expandNode later plain calls depth).gives

end

/-! ## Rewriting without effect -/

/-- What follows a result in a computation that was not cut short. -/
theorem Eval.andThen_of_ok {ε α β : Type} {x : ExceptT ε Eval α} {f : α → ExceptT ε Eval β} {a : α}
    {s t : Store} (h : x s = some (.ok a, t)) : (x >>= f) s = f a t := by
  have run : x.run s = some (.ok a, t) := h
  change (x.run >>= _) s = _
  rw [Eval.bind_apply, run]
  rfl

/-- Nothing follows a computation that was cut short. -/
theorem Eval.andThen_of_error {ε α β : Type} {x : ExceptT ε Eval α} {f : α → ExceptT ε Eval β}
    {e : ε} {s t : Store} (h : x s = some (.error e, t)) : (x >>= f) s = some (.error e, t) := by
  have run : x.run s = some (.error e, t) := h
  change (x.run >>= _) s = _
  rw [Eval.bind_apply, run]
  rfl

theorem Eval.lift_of_some {ε α : Type} {x : Eval α} {a : α} {s t : Store} (h : x s = some (a, t)) :
    (liftM x : ExceptT ε Eval α) s = some (.ok a, t) := by
  change (x >>= fun a => pure (Except.ok a)) s = _
  rw [Eval.bind_apply, h]
  rfl

/-- Nothing follows a computation that gave no result. -/
theorem Eval.andThen_of_none {ε α β : Type} {x : ExceptT ε Eval α} {f : α → ExceptT ε Eval β}
    {s : Store} (h : x s = none) : (x >>= f) s = none := by
  have run : x.run s = none := h
  change (x.run >>= _) s = _
  rw [Eval.bind_apply, run]

/-- What comes out of one step after another: what the second gives after a result of the first, or
what cut the first short. -/
theorem Eval.andThen_inv {ε α β : Type} {x : ExceptT ε Eval α} {f : α → ExceptT ε Eval β}
    {outcome : Except ε β} {s u : Store} (h : (x >>= f) s = some (outcome, u)) :
    (∃ a t, x s = some (.ok a, t) ∧ f a t = some (outcome, u)) ∨
      ∃ e, x s = some (.error e, u) ∧ outcome = .error e := by
  cases came : x s with
  | none =>
    rw [andThen_of_none came] at h
    cases h
  | some result =>
    obtain ⟨ended, t⟩ := result
    cases ended with
    | ok a =>
      rw [andThen_of_ok came] at h
      exact .inl ⟨a, t, rfl, h⟩
    | error e =>
      rw [andThen_of_error came] at h
      cases h
      exact .inr ⟨e, rfl, rfl⟩

theorem Eval.lift_apply {ε α : Type} (x : Eval α) (s : Store) :
    (liftM x : ExceptT ε Eval α) s = (x s).map fun (a, t) => (.ok a, t) := by
  change (x >>= fun a => pure (Except.ok a)) s = _
  rw [Eval.bind_apply]
  cases x s <;> rfl

theorem Eval.adapt_apply {ε δ α : Type} (x : ExceptT ε Eval α) (f : ε → δ) (s : Store) :
    (x.adapt f) s = (x s).map fun (outcome, t) => (outcome.mapError f, t) := by
  change (Except.mapError f <$> x.run) s = _
  have same : x.run s = x s := rfl
  rw [map_eq_pure_bind, Eval.bind_apply, same]
  cases x s <;> rfl

/-- A run over a list that gives something for each member and leaves the store as it is. -/
theorem Eval.mapM_of_ok {ε α β : Type} {f : α → ExceptT ε Eval β} {g : α → β} {xs : List α}
    {s : Store} (each : ∀ x ∈ xs, f x s = some (.ok (g x), s)) :
    xs.mapM f s = some (.ok (xs.map g), s) := by
  induction xs with
  | nil => rfl
  | cons x xs ih =>
    rw [List.mapM_cons, andThen_of_ok (each x List.mem_cons_self),
      andThen_of_ok (ih fun y inside => each y (List.mem_cons_of_mem x inside))]
    rfl

section
variable {ε : Type} {rule : Expr → ExceptT ε Eval Expr} {test : Test} {s : Store}
  (h : ∀ e, test.onExpr e → rule e s = some (.ok e, s))
include h

open Eval

theorem Expr.rewriteM_eq_self (e : Expr) (pass : e.everywhere test) :
    e.rewriteM rule s = some (.ok e, s) := by
  induction e, pass using Expr.partwise_of_everywhere with
  | step e pass parts =>
    have each := mapM_of_ok parts
    rw [List.map_id'] at each
    rw [Expr.rewriteM_eq_parts, andThen_of_ok each, Expr.withParts_parts]
    exact h e (Expr.onExpr_of_everywhere pass)

theorem rewriteBlockM_eq_self (block : Block) (pass : eachEverywhere test block) :
    rewriteBlockM rule block s = some (.ok block, s) := by
  have inside := (eachEverywhere_iff block).mp pass
  have each : ∀ x ∈ block.map Stmt.value, x.rewriteM rule s = some (.ok x, s) :=
    List.forall_mem_map.mpr fun st hst => st.value.rewriteM_eq_self h (inside st hst)
  have each := mapM_of_ok each
  rw [List.map_id'] at each
  rw [rewriteBlockM_eq, andThen_of_ok each, withValues_self]
  rfl

end

end Quasiquote
