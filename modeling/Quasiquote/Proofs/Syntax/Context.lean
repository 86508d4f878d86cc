import Quasiquote.Syntax.Reading

/-!
# Contexts

* `Context`: an expression with a hole for an expression, however deep inside. `Context.fill` puts
  one there.
* `Context.SameBefore`: two contexts differ at most behind the hole, in the order of evaluation.
-/

namespace Quasiquote

/-- An expression with a hole in place of an expression somewhere inside. -/
inductive Context
  | hole
  | operand (op : UnaryOp) (inner : Context)
  | left (inner : Context) (op : BinaryOp) (right : Expr)
  | right (left : Expr) (op : BinaryOp) (inner : Context)
  | test (inner : Context) (consequence : Block) (alternative : Option Block)
  /-- In a statement of the first branch. -/
  | consequence (test : Expr) (before : Block) (head : Head) (inner : Context) (after : Block)
      (alternative : Option Block)
  /-- In a statement of the second branch. -/
  | alternative (test : Expr) (consequence before : Block) (head : Head) (inner : Context)
      (after : Block)
  /-- In a statement of the body. -/
  | body (role : Role) (params : List String) (before : Block) (head : Head) (inner : Context)
      (after : Block)
  | callee (inner : Context) (args : List Expr)
  | arg (callee : Expr) (before : List Expr) (inner : Context) (after : List Expr)

namespace Context

def fill : Context → Expr → Expr
  | .hole, e => e
  | .operand op inner, e => .unary op (inner.fill e)
  | .left inner op second, e => .binary (inner.fill e) op second
  | .right first op inner, e => .binary first op (inner.fill e)
  | .test inner c d, e => .cond (inner.fill e) c d
  | .consequence x before head inner after d, e =>
    .cond x (before ++ head.complete (inner.fill e) :: after) d
  | .alternative x c before head inner after, e =>
    .cond x c (some (before ++ head.complete (inner.fill e) :: after))
  | .body role params before head inner after, e =>
    .routine role params (before ++ head.complete (inner.fill e) :: after)
  | .callee inner args, e => .call (inner.fill e) args
  | .arg f before inner after, e => .call f (before ++ inner.fill e :: after)

/-- Two contexts are the same up to the hole. What is done with the hole's value, what stands behind
it and the branches that it is not in may differ. -/
inductive SameBefore : Context → Context → Prop
  | hole : SameBefore .hole .hole
  | operand {inner inner'} (op op') (rest : SameBefore inner inner') :
      SameBefore (.operand op inner) (.operand op' inner')
  | left {inner inner'} (op op' right right') (rest : SameBefore inner inner') :
      SameBefore (.left inner op right) (.left inner' op' right')
  | right {left inner inner'} (op op') (rest : SameBefore inner inner') :
      SameBefore (.right left op inner) (.right left op' inner')
  | test {inner inner'} (consequence consequence' alternative alternative')
      (rest : SameBefore inner inner') :
      SameBefore (.test inner consequence alternative) (.test inner' consequence' alternative')
  | consequence {test before inner inner'} (head head' after after' alternative alternative')
      (rest : SameBefore inner inner') :
      SameBefore (.consequence test before head inner after alternative)
        (.consequence test before head' inner' after' alternative')
  | alternative {test before inner inner'} (consequence consequence' head head' after after')
      (rest : SameBefore inner inner') :
      SameBefore (.alternative test consequence before head inner after)
        (.alternative test consequence' before head' inner' after')
  | body {before inner inner'} (role role' params params' head head' after after')
      (rest : SameBefore inner inner') :
      SameBefore (.body role params before head inner after)
        (.body role' params' before head' inner' after')
  | callee {inner inner'} (args args') (rest : SameBefore inner inner') :
      SameBefore (.callee inner args) (.callee inner' args')
  | arg {callee before inner inner'} (after after') (rest : SameBefore inner inner') :
      SameBefore (.arg callee before inner after) (.arg callee before inner' after')

theorem SameBefore.refl (C : Context) : C.SameBefore C := by
  induction C with
  | hole => exact .hole
  | operand op _ ih => exact .operand op op ih
  | left _ op right ih => exact .left op op right right ih
  | right _ op _ ih => exact .right op op ih
  | test _ c d ih => exact .test c c d d ih
  | consequence _ _ head _ after d ih => exact .consequence head head after after d d ih
  | alternative _ c _ head _ after ih => exact .alternative c c head head after after ih
  | body role params _ head _ after ih =>
    exact .body role role params params head head after after ih
  | callee _ args ih => exact .callee args args ih
  | arg _ _ _ after ih => exact .arg after after ih

theorem SameBefore.name?_fill {C D : Context} (same : C.SameBefore D) (e : Expr) :
    (C.fill e).name? = (D.fill e).name? := by
  cases same <;> rfl

end Context

end Quasiquote
