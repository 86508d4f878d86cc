import Quasiquote.Proofs.Syntax.Parts

/-!
# A rewrite goes by the parts of an expression

* `Expr.withParts`, `withValues`: an expression with other parts, and statements with other
  expressions. Everything else in them is kept.
* `Expr.nodes`: the expressions in an expression, those in its parts before itself.
* `Expr.rewriteM_eq_parts`: a rewrite rewrites the parts in order, and then offers the expression
  with what came of them to the rule.
* `Expr.rewriteM_related`: rewrites by rules that agree agree, whatever it is that agreeing means.
* `Expr.rewriteM_eq_pure`: a rule that keeps what passes a test changes nothing where the test
  passes everywhere.
-/

namespace Quasiquote

/-! ## Other parts -/

def Stmt.withValue : Stmt → Expr → Stmt
  | .bind name _, x => .bind name x
  | .ret _, x => .ret x
  | .expr _, x => .expr x

/-- Statements with other expressions, one for each. -/
def withValues (block : Block) (xs : List Expr) : Block := block.zipWith Stmt.withValue xs

/-- An expression with other parts, one for each of its own. -/
def Expr.withParts : Expr → List Expr → Expr
  | .unary op _, [x] => .unary op x
  | .binary _ op _, [x, y] => .binary x op y
  | .cond _ consequence alternative, x :: xs =>
    .cond x (withValues consequence xs)
      (alternative.map fun block => withValues block (xs.drop consequence.length))
  | .routine role params body, xs => .routine role params (withValues body xs)
  | .call _ _, x :: xs => .call x xs
  | e, _ => e

@[simp] theorem Stmt.withValue_value (st : Stmt) : st.withValue st.value = st := by
  cases st <;> rfl

@[simp] theorem withValues_cons (st : Stmt) (rest : Block) (x : Expr) (xs : List Expr) :
    withValues (st :: rest) (x :: xs) = st.withValue x :: withValues rest xs := rfl

theorem withValues_self (block : Block) : withValues block (block.map Stmt.value) = block := by
  induction block with
  | nil => rfl
  | cons st rest ih => simp [ih]

/-- Expressions beyond those of the statements are left over. -/
theorem withValues_append {block : Block} {xs : List Expr} (ys : List Expr)
    (length : xs.length = block.length) : withValues block (xs ++ ys) = withValues block xs := by
  induction block generalizing xs with
  | nil => rfl
  | cons st rest ih =>
    cases xs with
    | nil => cases length
    | cons x xs => simp [ih (Nat.succ.inj length)]

theorem Expr.withParts_parts (e : Expr) : e.withParts e.parts = e := by
  cases e with
  | cond test consequence alternative =>
    cases alternative <;>
      simp [Expr.parts, Expr.withParts, withValues_append, withValues_self]
  | routine role params body => simp [Expr.parts, Expr.withParts, withValues_self]
  | _ => rfl

theorem values_withValues {block : Block} {xs : List Expr} (length : xs.length = block.length) :
    (withValues block xs).map Stmt.value = xs := by
  induction block generalizing xs with
  | nil => exact (List.length_eq_zero_iff.mp length).symm
  | cons st rest ih =>
    cases xs with
    | nil => cases length
    | cons x xs =>
      have value : (st.withValue x).value = x := by cases st <;> rfl
      simp [value, ih (Nat.succ.inj length)]

theorem Expr.parts_withParts {e : Expr} {xs : List Expr} (length : xs.length = e.parts.length) :
    (e.withParts xs).parts = xs := by
  cases e with
  | name | int | bool => exact (List.length_eq_zero_iff.mp length).symm
  | unary op operand =>
    obtain ⟨x, rfl⟩ := List.length_eq_one_iff.mp length
    rfl
  | binary left op right =>
    match xs, length with
    | [_, _], _ => rfl
  | routine role params body => exact values_withValues (by simpa [Expr.parts] using length)
  | call callee args =>
    cases xs with
    | nil => cases length
    | cons x xs => rfl
  | cond test consequence alternative =>
    cases xs with
    | nil => cases length
    | cons x xs =>
      have inside : xs.length = consequence.length + (alternative.getD []).length := by
        simpa [Expr.parts] using length
      cases alternative with
      | none => simp [Expr.withParts, Expr.parts, values_withValues inside]
      | some block =>
        obtain ⟨ys, zs, rfl, first⟩ : ∃ ys zs, xs = ys ++ zs ∧ ys.length = consequence.length :=
          ⟨_, _, (List.take_append_drop consequence.length xs).symm, by simp [inside]⟩
        have second : zs.length = block.length := by
          rw [List.length_append, first] at inside
          exact Nat.add_left_cancel inside
        have left : (ys ++ zs).drop consequence.length = zs := by rw [← first, List.drop_left]
        simp [Expr.withParts, Expr.parts, withValues_append, values_withValues, first, second, left]
/-- The same expression but for its parts: of the same kind, with the same names, operators and
literals, and the same statements around as many other parts. -/
def Expr.Rebuilt (e e' : Expr) : Prop :=
  ∃ xs : List Expr, xs.length = e.parts.length ∧ e' = e.withParts xs

/-! ## Nodes -/

/-- The expressions in an expression: those in its parts, in order, and then itself. -/
def Expr.nodes (e : Expr) : List Expr :=
  (e.parts.attach.flatMap fun part => part.1.nodes) ++ [e]
termination_by sizeOf e
decreasing_by exact Expr.sizeOf_lt_of_mem_parts part.2

theorem Expr.nodes_eq (e : Expr) : e.nodes = e.parts.flatMap Expr.nodes ++ [e] := by
  rw [Expr.nodes, List.flatMap_subtype (g := Expr.nodes) (fun _ _ => rfl), List.unattach_attach]

def Program.nodes (program : Program) : List Expr := (program.map Stmt.value).flatMap Expr.nodes

/-! ## Part by part -/

section
variable {m : Type → Type} [Monad m] (rule : Expr → m Expr)

theorem Stmt.rewriteM_eq (st : Stmt) :
    st.rewriteM rule = st.value.rewriteM rule >>= fun x => pure (st.withValue x) := by
  cases st <;> rfl

variable [LawfulMonad m]

/-- What comes after a run over a list may count on one result for each of its members. -/
theorem mapM_bind_congr {α β γ : Type} {f : α → m β} {xs : List α} {next next' : List β → m γ}
    (same : ∀ ys, ys.length = xs.length → next ys = next' ys) :
    (xs.mapM f >>= next) = (xs.mapM f >>= next') := by
  induction xs generalizing next next' with
  | nil => simp [same [] rfl]
  | cons x xs ih =>
    simp only [List.mapM_cons, bind_assoc, pure_bind]
    congr 1
    funext y
    apply ih
    intro ys length
    exact same (y :: ys) (congrArg Nat.succ length)

theorem rewriteArgsM_eq (xs : List Expr) :
    rewriteArgsM rule xs = xs.mapM (Expr.rewriteM rule) := by
  induction xs with
  | nil => rfl
  | cons x rest ih => rw [rewriteArgsM, ih, List.mapM_cons]

theorem rewriteBlockM_eq (block : Block) :
    rewriteBlockM rule block =
      (block.map Stmt.value).mapM (Expr.rewriteM rule) >>= fun xs =>
        pure (withValues block xs) := by
  induction block with
  | nil => simp [rewriteBlockM, withValues]
  | cons st rest ih =>
    simp only [rewriteBlockM, Stmt.rewriteM_eq, ih, List.map_cons, List.mapM_cons, bind_assoc,
      pure_bind]
    rfl

/-- The parts are rewritten in order, and the rule is offered the expression with what came of
them. -/
theorem Expr.rewriteM_eq_parts (e : Expr) :
    e.rewriteM rule =
      e.parts.mapM (Expr.rewriteM rule) >>= fun xs => rule (e.withParts xs) := by
  cases e with
  | name | int | bool => simp [Expr.rewriteM, Expr.parts, Expr.withParts]
  | unary op operand => simp [Expr.rewriteM, Expr.parts, Expr.withParts]
  | binary left op right => simp [Expr.rewriteM, Expr.parts, Expr.withParts]
  | routine role params body =>
    simp [Expr.rewriteM, Expr.parts, Expr.withParts, rewriteBlockM_eq]
  | call callee args => simp [Expr.rewriteM, Expr.parts, Expr.withParts, rewriteArgsM_eq]
  | cond test consequence alternative =>
    simp only [Expr.rewriteM, Expr.parts, rewriteBlockM_eq, List.mapM_cons, List.mapM_append,
      bind_assoc, pure_bind]
    congr 1
    funext t
    apply mapM_bind_congr
    intro xs length
    rw [List.length_map] at length
    cases alternative with
    | none =>
      simp [rewriteAlternativeM, Expr.withParts, withValues_append, length]
    | some block =>
      simp only [rewriteAlternativeM, rewriteBlockM_eq, bind_assoc, pure_bind, Option.getD_some,
        Expr.withParts, withValues_append _ length, Option.map_some, ← length, List.drop_left]

theorem Program.rewriteM_eq_parts (program : Program) :
    program.rewriteM rule =
      (program.map Stmt.value).mapM (Expr.rewriteM rule) >>= fun xs =>
        pure (withValues program xs) :=
  rewriteBlockM_eq rule program

/-- A run that keeps every member of a list keeps the list. -/
theorem mapM_eq_pure {α : Type} {f : α → m α} {xs : List α} (each : ∀ x ∈ xs, f x = pure x) :
    xs.mapM f = pure xs := by
  induction xs with
  | nil => rfl
  | cons x xs ih =>
    rw [List.mapM_cons, each x List.mem_cons_self, pure_bind,
      ih fun y inside => each y (List.mem_cons_of_mem x inside), pure_bind]

section
variable {rule} {test : Test} (kept : ∀ e, test.onExpr e → rule e = pure e)
include kept

/-- A rule that keeps what passes a test changes nothing where the test passes everywhere. -/
theorem Expr.rewriteM_eq_pure (e : Expr) (pass : e.everywhere test) :
    e.rewriteM rule = pure e := by
  induction e, pass using Expr.partwise_of_everywhere with
  | step e pass parts =>
    rw [Expr.rewriteM_eq_parts, mapM_eq_pure parts, pure_bind, Expr.withParts_parts]
    exact kept e (Expr.onExpr_of_everywhere pass)

theorem Program.rewriteM_eq_pure (program : Program) (pass : program.everywhere test) :
    program.rewriteM rule = pure program := by
  have inside := (eachEverywhere_iff program).mp (Bool.and_eq_true_iff.mp pass).2
  have each : ∀ x ∈ program.map Stmt.value, x.rewriteM rule = pure x :=
    List.forall_mem_map.mpr fun st hst => st.value.rewriteM_eq_pure kept (inside st hst)
  rw [Program.rewriteM_eq_parts, mapM_eq_pure each, pure_bind, withValues_self]

end

theorem Program.rewriteM_pure (program : Program) :
    program.rewriteM (pure : Expr → m Expr) = pure program :=
  program.rewriteM_eq_pure (fun _ _ => rfl) (Program.everywhere_of_forall (fun _ => rfl) program)

/-! ## Two rules -/

variable {rule} {n : Type → Type} [Monad n] [LawfulMonad n] {rule' : Expr → n Expr}

/-- A way in which computations may agree: those that give a result at once do, and one step after
another does if both steps do. -/
structure Agreeing (R : ∀ α : Type, m α → n α → Prop) : Prop where
  done : ∀ {α : Type} (a : α), R α (pure a) (pure a)
  andThen : ∀ {α β : Type} {x : m α} {y : n α} {f : α → m β} {g : α → n β},
    R α x y → (∀ a, R β (f a) (g a)) → R β (x >>= f) (y >>= g)

variable {R : ∀ α : Type, m α → n α → Prop}

theorem Agreeing.mapM {α β : Type} (agreeing : Agreeing R) {f : α → m β} {g : α → n β}
    {xs : List α} (each : ∀ x ∈ xs, R β (f x) (g x)) : R (List β) (xs.mapM f) (xs.mapM g) := by
  induction xs with
  | nil => simpa using agreeing.done []
  | cons x xs ih =>
    rw [List.mapM_cons, List.mapM_cons]
    apply agreeing.andThen (each x List.mem_cons_self)
    intro y
    apply agreeing.andThen (ih fun z inside => each z (List.mem_cons_of_mem x inside))
    intro ys
    exact agreeing.done (y :: ys)

/-- Rewrites by two rules agree if the rules do on every expression. -/
theorem Expr.rewriteM_related (agreeing : Agreeing R) (rules : ∀ e, R Expr (rule e) (rule' e))
    (e : Expr) : R Expr (e.rewriteM rule) (e.rewriteM rule') := by
  induction e using Expr.partwise with
  | step e parts =>
    rw [Expr.rewriteM_eq_parts, Expr.rewriteM_eq_parts rule']
    exact agreeing.andThen (agreeing.mapM parts) fun xs => rules (e.withParts xs)

theorem Program.rewriteM_related (agreeing : Agreeing R)
    (rules : ∀ e, R Expr (rule e) (rule' e)) (program : Program) :
    R Program (program.rewriteM rule) (program.rewriteM rule') := by
  rw [Program.rewriteM_eq_parts, Program.rewriteM_eq_parts rule']
  apply agreeing.andThen (agreeing.mapM fun x _ => Expr.rewriteM_related agreeing rules x)
  intro xs
  exact agreeing.done (withValues program xs)

end

end Quasiquote
