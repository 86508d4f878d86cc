import Quasiquote.Syntax.Rewrite

/-!
# Tests on every part of a tree

* `Test`: a test for expressions and one for lists of statements. `Program.everywhere`: they pass on
  every part of a program.
* `Program.everywhere_imp`: where two tests pass, one that follows from them does.
* `Program.withSigns`: negative literals made into operations, the only form that source has for
  them.
-/

namespace Quasiquote

/-- A test for expressions and a test for lists of statements. -/
structure Test where
  onExpr : Expr → Bool
  onList : List Stmt → Bool

mutual

/-- Whether a test passes on an expression and on all parts of it. -/
def Expr.everywhere (test : Test) : Expr → Bool
  | .name id => test.onExpr (.name id)
  | .int n => test.onExpr (.int n)
  | .bool b => test.onExpr (.bool b)
  | .unary op operand => test.onExpr (.unary op operand) && operand.everywhere test
  | .binary left op right =>
    test.onExpr (.binary left op right) && left.everywhere test && right.everywhere test
  | .cond condition consequence alternative =>
    test.onExpr (.cond condition consequence alternative) && condition.everywhere test &&
      (test.onList consequence && eachEverywhere test consequence) &&
      alternativeEverywhere test alternative
  | .routine role params body =>
    test.onExpr (.routine role params body) && (test.onList body && eachEverywhere test body)
  | .call callee args =>
    test.onExpr (.call callee args) && callee.everywhere test && argsEverywhere test args

def Stmt.everywhere (test : Test) : Stmt → Bool
  | .bind _ value => value.everywhere test
  | .ret value => value.everywhere test
  | .expr value => value.everywhere test

def eachEverywhere (test : Test) : List Stmt → Bool
  | [] => true
  | s :: rest => s.everywhere test && eachEverywhere test rest

def alternativeEverywhere (test : Test) : Option (List Stmt) → Bool
  | none => true
  | some block => test.onList block && eachEverywhere test block

def argsEverywhere (test : Test) : List Expr → Bool
  | [] => true
  | x :: rest => x.everywhere test && argsEverywhere test rest

end

def Program.everywhere (test : Test) (program : Program) : Bool :=
  test.onList program && eachEverywhere test program

def Test.and (a b : Test) : Test where
  onExpr e := a.onExpr e && b.onExpr e
  onList ss := a.onList ss && b.onList ss

/-- A test passes wherever two others pass on all parts. -/
structure Test.Follows (a b c : Test) : Prop where
  onExpr : ∀ e : Expr, e.everywhere a → e.everywhere b → c.onExpr e
  onList : ∀ ss, a.onList ss → b.onList ss → c.onList ss

section
variable {a b c : Test}

mutual

theorem Expr.everywhere_imp (f : a.Follows b c) :
    ∀ e : Expr, e.everywhere a → e.everywhere b → e.everywhere c
  | .name _, h, h' => f.onExpr _ h h'
  | .int _, h, h' => f.onExpr _ h h'
  | .bool _, h, h' => f.onExpr _ h h'
  | .unary _ operand, h, h' => by
    have root := f.onExpr _ h h'
    simp only [Expr.everywhere, Bool.and_eq_true] at h h' ⊢
    exact ⟨root, operand.everywhere_imp f h.2 h'.2⟩
  | .binary left _ right, h, h' => by
    have root := f.onExpr _ h h'
    simp only [Expr.everywhere, Bool.and_eq_true] at h h' ⊢
    exact ⟨⟨root, left.everywhere_imp f h.1.2 h'.1.2⟩, right.everywhere_imp f h.2 h'.2⟩
  | .cond condition consequence alternative, h, h' => by
    have root := f.onExpr _ h h'
    simp only [Expr.everywhere, Bool.and_eq_true] at h h' ⊢
    obtain ⟨⟨⟨_, test⟩, list, each⟩, other⟩ := h
    obtain ⟨⟨⟨_, test'⟩, list', each'⟩, other'⟩ := h'
    exact ⟨⟨⟨root, condition.everywhere_imp f test test'⟩, f.onList _ list list',
      eachEverywhere_imp f consequence each each'⟩,
      alternativeEverywhere_imp f alternative other other'⟩
  | .routine _ _ body, h, h' => by
    have root := f.onExpr _ h h'
    simp only [Expr.everywhere, Bool.and_eq_true] at h h' ⊢
    exact ⟨root, f.onList _ h.2.1 h'.2.1, eachEverywhere_imp f body h.2.2 h'.2.2⟩
  | .call callee args, h, h' => by
    have root := f.onExpr _ h h'
    simp only [Expr.everywhere, Bool.and_eq_true] at h h' ⊢
    exact ⟨⟨root, callee.everywhere_imp f h.1.2 h'.1.2⟩, argsEverywhere_imp f args h.2 h'.2⟩

theorem Stmt.everywhere_imp (f : a.Follows b c) :
    ∀ s : Stmt, s.everywhere a → s.everywhere b → s.everywhere c
  | .bind _ value, h, h' => value.everywhere_imp f h h'
  | .ret value, h, h' => value.everywhere_imp f h h'
  | .expr value, h, h' => value.everywhere_imp f h h'

theorem eachEverywhere_imp (f : a.Follows b c) :
    ∀ ss : List Stmt, eachEverywhere a ss → eachEverywhere b ss → eachEverywhere c ss
  | [], _, _ => rfl
  | s :: rest, h, h' => by
    simp only [eachEverywhere, Bool.and_eq_true] at h h' ⊢
    exact ⟨s.everywhere_imp f h.1 h'.1, eachEverywhere_imp f rest h.2 h'.2⟩

theorem alternativeEverywhere_imp (f : a.Follows b c) : ∀ d : Option (List Stmt),
    alternativeEverywhere a d → alternativeEverywhere b d → alternativeEverywhere c d
  | none, _, _ => rfl
  | some block, h, h' => by
    simp only [alternativeEverywhere, Bool.and_eq_true] at h h' ⊢
    exact ⟨f.onList _ h.1 h'.1, eachEverywhere_imp f block h.2 h'.2⟩

theorem argsEverywhere_imp (f : a.Follows b c) :
    ∀ xs : List Expr, argsEverywhere a xs → argsEverywhere b xs → argsEverywhere c xs
  | [], _, _ => rfl
  | x :: rest, h, h' => by
    simp only [argsEverywhere, Bool.and_eq_true] at h h' ⊢
    exact ⟨x.everywhere_imp f h.1 h'.1, argsEverywhere_imp f rest h.2 h'.2⟩

end

theorem Program.everywhere_imp (f : a.Follows b c) {p : Program} (h : p.everywhere a)
    (h' : p.everywhere b) : p.everywhere c := by
  simp only [Program.everywhere, Bool.and_eq_true] at h h' ⊢
  exact ⟨f.onList p h.1 h'.1, eachEverywhere_imp f p h.2 h'.2⟩

end

theorem Expr.onExpr_of_everywhere {a : Test} {e : Expr} (h : e.everywhere a) : a.onExpr e := by
  cases e <;> simp only [Expr.everywhere, Bool.and_eq_true] at h <;> simp only [h]

theorem Program.everywhere_and {a b : Test} {p : Program} (h : p.everywhere a)
    (h' : p.everywhere b) : p.everywhere (a.and b) := by
  refine Program.everywhere_imp ⟨fun e he he' => ?_, fun ss hl hl' => ?_⟩ h h'
  · exact Bool.and_eq_true_iff.mpr ⟨e.onExpr_of_everywhere he, e.onExpr_of_everywhere he'⟩
  · exact Bool.and_eq_true_iff.mpr ⟨hl, hl'⟩

theorem Program.everywhere_of_and {a b : Test} {p : Program} (h : p.everywhere (a.and b)) :
    p.everywhere a ∧ p.everywhere b := by
  constructor
  · refine Program.everywhere_imp ⟨fun e he _ => ?_, fun ss hl _ => ?_⟩ h h
    · exact (Bool.and_eq_true_iff.mp (e.onExpr_of_everywhere he)).1
    · exact (Bool.and_eq_true_iff.mp hl).1
  · refine Program.everywhere_imp ⟨fun e he _ => ?_, fun ss hl _ => ?_⟩ h h
    · exact (Bool.and_eq_true_iff.mp (e.onExpr_of_everywhere he)).2
    · exact (Bool.and_eq_true_iff.mp hl).2

/-- A negative literal as an operation on a positive one. -/
def Expr.signed : Expr → Expr
  | .int n => if n < 0 then .unary .neg (.int (-n)) else .int n
  | e => e

/-- An expression with every negative literal as an operation. -/
def Expr.withSigns (e : Expr) : Expr := e.rewriteM (m := Id) Expr.signed

def Program.withSigns (program : Program) : Program := program.rewriteM (m := Id) Expr.signed

def argsWithSigns (args : List Expr) : List Expr := rewriteArgsM (m := Id) Expr.signed args

/-- No literal is negative. -/
def Test.unsigned : Test where
  onExpr
    | .int n => 0 ≤ n
    | _ => true
  onList _ := true

end Quasiquote
