import Quasiquote.Syntax

/-!
# Equality of trees

`Expr.same` and `Stmt.same` compare two trees part by part; `Expr.same_iff` and `Stmt.same_iff` say
that they decide equality, which makes it decidable.
-/

namespace Quasiquote

mutual

/-- Whether two expressions have the same parts. -/
def Expr.same : Expr → Expr → Bool
  | .name a, .name b => a == b
  | .int a, .int b => a == b
  | .bool a, .bool b => a == b
  | .unary f a, .unary g b => f == g && a.same b
  | .binary a f b, .binary c g d => a.same c && f == g && b.same d
  | .cond a b c, .cond d e f => a.same d && sameBlock b e && sameAlternative c f
  | .routine r ps b, .routine s qs c => r == s && ps == qs && sameBlock b c
  | .call f xs, .call g ys => f.same g && sameArgs xs ys
  | _, _ => false

def Stmt.same : Stmt → Stmt → Bool
  | .bind x a, .bind y b => x == y && a.same b
  | .ret a, .ret b => a.same b
  | .expr a, .expr b => a.same b
  | _, _ => false

def sameBlock : List Stmt → List Stmt → Bool
  | [], [] => true
  | s :: ss, t :: ts => s.same t && sameBlock ss ts
  | _, _ => false

def sameAlternative : Option (List Stmt) → Option (List Stmt) → Bool
  | none, none => true
  | some a, some b => sameBlock a b
  | _, _ => false

def sameArgs : List Expr → List Expr → Bool
  | [], [] => true
  | x :: xs, y :: ys => x.same y && sameArgs xs ys
  | _, _ => false

end

mutual

theorem Expr.same_iff : ∀ a b : Expr, a.same b = true ↔ a = b
  | .name _, b => by cases b <;> simp [Expr.same]
  | .int _, b => by cases b <;> simp [Expr.same]
  | .bool _, b => by cases b <;> simp [Expr.same]
  | .unary _ a, b => by cases b <;> simp [Expr.same, Expr.same_iff a]
  | .binary a _ c, b => by cases b <;> simp [Expr.same, Expr.same_iff a, Expr.same_iff c, and_assoc]
  | .cond a c d, b => by
    cases b <;> simp [Expr.same, Expr.same_iff a, sameBlock_iff c, sameAlternative_iff d, and_assoc]
  | .routine _ _ c, b => by cases b <;> simp [Expr.same, sameBlock_iff c, and_assoc]
  | .call f xs, b => by cases b <;> simp [Expr.same, Expr.same_iff f, sameArgs_iff xs]

theorem Stmt.same_iff : ∀ s t : Stmt, s.same t = true ↔ s = t
  | .bind _ a, t => by cases t <;> simp [Stmt.same, Expr.same_iff a]
  | .ret a, t => by cases t <;> simp [Stmt.same, Expr.same_iff a]
  | .expr a, t => by cases t <;> simp [Stmt.same, Expr.same_iff a]

theorem sameBlock_iff : ∀ b c : List Stmt, sameBlock b c = true ↔ b = c
  | [], c => by cases c <;> simp [sameBlock]
  | s :: ss, c => by cases c <;> simp [sameBlock, Stmt.same_iff s, sameBlock_iff ss]

theorem sameAlternative_iff :
    ∀ b c : Option (List Stmt), sameAlternative b c = true ↔ b = c
  | none, c => by cases c <;> simp [sameAlternative]
  | some b, c => by cases c <;> simp [sameAlternative, sameBlock_iff b]

theorem sameArgs_iff : ∀ xs ys : List Expr, sameArgs xs ys = true ↔ xs = ys
  | [], ys => by cases ys <;> simp [sameArgs]
  | x :: xs, ys => by cases ys <;> simp [sameArgs, Expr.same_iff x, sameArgs_iff xs]

end

instance : DecidableEq Expr := fun a b => decidable_of_iff _ (Expr.same_iff a b)

instance : DecidableEq Stmt := fun s t => decidable_of_iff _ (Stmt.same_iff s t)

end Quasiquote
